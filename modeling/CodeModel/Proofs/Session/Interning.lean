import CodeModel.Proofs.Session.Steps

namespace CodeModel

structure Store.Preserves (σ τ : Store) : Prop where
  extends' : σ.Extends τ
  object : ∀ id i, σ.object id = some i → ∃ j, τ.object id = some j ∧ i.Means j

variable {σ τ υ : Store}

lemma Store.Preserves.refl (σ : Store) : σ.Preserves σ := ⟨.refl σ, fun _ i hi => ⟨i, hi, .refl i⟩⟩

lemma Store.Preserves.trans (h : σ.Preserves τ) (h' : τ.Preserves υ) : σ.Preserves υ where
  extends' := h.extends'.trans h'.extends'
  object id i hi := by
    obtain ⟨j, hj, hij⟩ := h.object id i hi
    obtain ⟨l, hl, hjl⟩ := h'.object id j hj
    exact ⟨l, hl, hij.trans hjl⟩

namespace Session

variable {s t : Session} {p : String} {q q' : Provider} {w : Work} {is js : List Item} {i j : Item}

def work (s : Session) (q : Provider) : Work := ⟨q, s.nextObject, s.events, none⟩

def setting (s : Session) : Setting := ⟨s.hasher, s.frozen⟩

def settled (s : Session) (p : String) (w : Work) : Session :=
  { s with providers := assign p w.provider s.providers, nextObject := w.next, events := w.events }

namespace Good

lemma work (hg : s.Good σ) (hq : s.providers.lookup p = some q) : (s.work q).Good s.hasher σ :=
  ⟨hg.sound _ (mem_of_lookup hq), hg.providers _ (mem_of_lookup hq), hg.object, hg.list⟩

theorem provider (hg : s.Good σ) (hq : s.providers.lookup p = some q) (hf : q'.Fits s.hasher σ)
    (hs : q'.Sound s.hasher) (hn : q'.number = q.number) :
    ({ s with providers := assign p q' s.providers } : Session).Good σ where
  __ := hg
  providers c hc := by
    rcases mem_of_mem_assign hc with rfl | hc
    · exact hf
    · exact hg.providers c hc
  sound c hc := by
    rcases mem_of_mem_assign hc with rfl | hc
    · exact hs
    · exact hg.sound c hc
  namedOnce := hg.namedOnce.assign
  numbered c hc := by
    rcases mem_of_mem_assign hc with rfl | hc
    · exact hn ▸ hg.numbered _ (mem_of_lookup hq)
    · exact hg.numbered c hc
  numberedOnce b hb c hc he := by
    have old := mem_of_lookup hq
    rcases (mem_assign hg.namedOnce).mp hb with rfl | ⟨hb, hbp⟩ <;>
      rcases (mem_assign hg.namedOnce).mp hc with rfl | ⟨hc, hcp⟩
    · rfl
    · exact absurd (congrArg Prod.fst (hg.numberedOnce _ old c hc (hn.symm.trans he))).symm hcp
    · exact absurd (congrArg Prod.fst (hg.numberedOnce b hb _ old (he.trans hn))) hbp
    · exact hg.numberedOnce b hb c hc he

end Good

lemma Later.provider (h : Later σ s τ t) (hq : t.providers.lookup p = some q) (hgrow : q.Grows s.hasher q') :
    Later σ s τ { t with providers := assign p q' t.providers } where
  __ := h
  providers c hc := by
    rcases mem_of_mem_assign hc with rfl | hc
    · rcases h.providers _ (mem_of_lookup hq) with ⟨b, hb, hbq⟩ | hn
      · exact .inl ⟨b, hb, hbq.trans hgrow⟩
      · exact .inr (hgrow.number ▸ hn)
    · exact h.providers c hc

theorem Good.kept (hg : s.Good σ) (hq : s.providers.lookup p = some q)
    (hr : Rewrite s.setting (s.Keeps (some p)) σ (s.work q) is τ w js) {id : Nat}
    (hk : s.Keeps none id ∨ id ∈ s.frozen) : τ.object id = σ.object id := by
  rcases hr.changes id with he | hn | ⟨-, hk', hnew, hz⟩
  · exact he
  · rcases hk with hk | hk
    · obtain ⟨i, hi⟩ := hg.object_of_keeps hk
      exact absurd (hg.object id i hi) (not_lt.mpr hn)
    · exact absurd (hg.frozen id hk) (not_lt.mpr hn)
  · rcases hk with (hl | ht | ⟨b, hb, -, hreg⟩) | hk
    · exact (hk' (.inl hl)).elim
    · exact (hk' (.inr (.inl ht))).elim
    · by_cases hbp : b.1 = p
      · obtain ⟨n, c⟩ := b
        subst hbp
        obtain rfl : c = q := by simpa [lookup_of_mem hg.namedOnce hb] using hq
        exact (hnew hreg).elim
      · exact (hk' (.inr (.inr ⟨b, hb, by simpa using hbp, hreg⟩))).elim
    · exact (hz hk).elim

theorem Good.settled (hg : s.Good σ) (hq : s.providers.lookup p = some q)
    (hr : Rewrite s.setting (s.Keeps (some p)) σ (s.work q) is τ w js) :
    (s.settled p w).Good τ ∧ Later σ s τ (s.settled p w) := by
  have good : ({ s with nextObject := w.next, nextText := s.nextText } : Session).Good τ :=
    hg.store hr.extends' (fun _ => hg.kept hq hr) hr.next hr.good.object hr.good.list (hr.texts ▸ hg.text)
  have later : Later σ s τ ({ s with nextObject := w.next } : Session) :=
    { Later.refl σ s with extends' := hr.extends', nextObject := hr.next, kept := fun _ hid => hg.kept hq hr (.inr hid) }
  exact ⟨(good.provider hq hr.good.fits hr.good.sound hr.grows.number).withEvents w.events,
    { later.provider hq hr.grows with }⟩

def Yields (σ : Store) (s : Session) (n : Nat) (i j : Item) (whole : Prop) (e : Option ModelError) (t : Session) :
    Prop :=
  ∃ τ, t.Good τ ∧ Later σ s τ t ∧ σ.Preserves τ ∧ τ.Fits j ∧ i.Means j ∧ ∃ b ∈ t.providers, b.2.number = n ∧
    (e = none → (whole → b.2.Canonical t.hasher j) ∧ ∀ l ∈ j.parts, b.2.Canonical t.hasher l)

theorem Good.put_rewritten {r : String} (hg : s.Good σ) (hq : s.providers.lookup p = some q)
    (hi : s.register? r = some i) (hr : Rewrite s.setting ((s.without r).Keeps (some p)) σ (s.work q) [i] τ w [j])
    (hd : ∀ d, j = .definition d → ∃ e, i = .definition e ∧ d.id = e.id) :
    ((s.settled p w).put r j).Good τ ∧ Later σ s τ ((s.settled p w).put r j) := by
  obtain ⟨good, later⟩ := (hg.without r).settled hq hr
  have held : (r, i) ∈ s.registers := mem_of_lookup hi
  refine ⟨Good.put (s := s.settled p w) good hg.boundOnce (hr.fits j (by simp)) fun d hjd b hb hne e he hid => ?_,
    { later with }⟩
  obtain ⟨c, rfl, hdc⟩ := hd d hjd
  exact hne (congrArg Prod.fst (hg.ownedOnce b hb _ held e c he rfl (hid ▸ hdc)))

theorem Good.settled_put {r : String} {whole : Prop} (hg : s.Good σ) (hq : s.providers.lookup p = some q)
    (hi : s.register? r = some i)
    (h : Becomes s.setting ((s.without r).Keeps (some p)) σ (s.work q) i whole w j) :
    ∃ τ, Rewrite s.setting ((s.without r).Keeps (some p)) σ (s.work q) [i] τ w [j] ∧
      ((s.settled p w).put r j).Good τ ∧ Later σ s τ ((s.settled p w).put r j) ∧
      (w.failure = none → (whole → w.provider.Canonical s.hasher j) ∧
        ∀ l ∈ j.parts, w.provider.Canonical s.hasher l) := by
  obtain ⟨τ, hr, hd, hc⟩ := h
  obtain ⟨good, later⟩ := hg.put_rewritten hq hi hr hd
  exact ⟨τ, hr, good, later, hc⟩

theorem Good.yields {r : String} {whole : Prop} (hg : s.Good σ) (hq : s.providers.lookup p = some q)
    (hi : s.register? r = some i)
    (h : Becomes s.setting ((s.without r).Keeps (some p)) σ (s.work q) i whole w j) :
    Yields σ s q.number i j whole w.failure ((s.settled p w).put r j) := by
  obtain ⟨τ, hr, good, later, hc⟩ := hg.settled_put hq hi h
  exact ⟨τ, good, later, ⟨hr.extends', hr.persists⟩, hr.fits j (by simp), (List.forall₂_cons.mp hr.value).1,
    (p, w.provider), (mem_assign hg.namedOnce).mpr (.inl rfl), hr.grows.number, hc⟩

end Session

namespace Builder

open Session

variable {s : Session} {α : Type}

lemma register_reads (name : String) :
    (register name).Makes (· = s) (fun i t => t = s ∧ s.register? name = some i) := by
  refine .bind (Q := fun u t => t = s ∧ u = s) (.get fun t ht => ⟨ht, ht⟩) fun u => ?_
  rintro t ⟨rfl, rfl⟩
  exact Makes.ofOption (P := (· = u)) (fun i hi t ht => ⟨ht, hi⟩) u rfl

lemma interning_makes (p : String) (act : Setting → Interning α) : (interning p act).Makes (· = s) (fun r t =>
    ∃ q, s.providers.lookup p = some q ∧ r.1 = ((act s.setting).run (s.work q)).1 ∧
      r.2 = ((act s.setting).run (s.work q)).2.failure ∧ t = s.settled p ((act s.setting).run (s.work q)).2) := by
  refine .bind (Q := fun u t => t = s ∧ u = s) (.get fun t ht => ⟨ht, ht⟩) fun u => ?_
  rintro t ⟨rfl, rfl⟩
  unfold interning?
  cases hq : u.providers.lookup p with
  | none => exact Makes.failure (P := (· = u)) u rfl
  | some q =>
    simp only [Option.bind_eq_bind, Option.bind_some]
    exact Makes.bind (P := (· = u)) (Q := fun _ t => t = u.settled p ((act u.setting).run (u.work q)).2)
      (fun _ _ _ _ hrun => by cases hrun; rfl) (fun _ => .pure fun t ht => ⟨q, rfl, rfl, rfl, ht⟩) u rfl

lemma reads_makes {act : Builder α} {P : Session → Prop} (h : Reads act) : act.Makes P (fun _ => P) := by
  intro t ht a u hrun
  rw [h t t rfl a u hrun]
  exact ht

end Builder

namespace Session

variable {σ τ : Store} {s t : Session} {p r : String} {q : Provider} {i j : Item} {α : Type}

def Outcome (σ : Store) (s : Session) (p r : String) (whole : Item → Prop) (a : Answer) (t : Session) : Prop :=
  (t = s ∧ ∀ e m l z, a ≠ .interned e m l z) ∨
    ∃ q i j e m l z, s.providers.lookup p = some q ∧ s.register? r = some i ∧ a = .interned e m l z ∧
      t.registers = assign r j s.registers ∧ Yields σ s q.number i j (whole i) e t

def Called (s : Session) (p r : String) (act : Setting → Interning Item) (a : Answer) (t : Session) : Prop :=
  ∃ q m l, s.providers.lookup p = some q ∧
    a = .interned ((act s.setting).run (s.work q)).2.failure m l ((act s.setting).run (s.work q)).2.provider.stats ∧
    t = (s.settled p ((act s.setting).run (s.work q)).2).put r ((act s.setting).run (s.work q)).1

lemma register_run (hi : s.register? r = some i) : (Builder.register r).run s = some (i, s) := by
  simp [Builder.register, Builder.ofOption, hi]

lemma provider_run (hq : s.providers.lookup p = some q) : (provider p).run s = some (q, s) := by
  simp [provider, Builder.ofOption, hq]

-- a step begins with the events of the last one cleared, which `simp` does not see through
lemma register_run_cleared (hi : s.register? r = some i) :
    (Builder.register r).run { s with events := [] } = some (i, { s with events := [] }) := register_run hi

lemma provider_run_cleared (hq : s.providers.lookup p = some q) :
    (provider p).run { s with events := [] } = some (q, { s with events := [] }) := provider_run hq

lemma interning_run (hq : s.providers.lookup p = some q) (act : Setting → Interning α) :
    (interning p act).run s = some ((((act s.setting).run (s.work q)).1, ((act s.setting).run (s.work q)).2.failure),
      s.settled p ((act s.setting).run (s.work q)).2) := by
  simp [interning, interning?, hq]
  rfl

lemma statsOf_run (hq : s.providers.lookup p = some q) : (statsOf p).run s = some (q.stats, s) := by
  simp [statsOf, provider_run hq]

lemma statsOf_makes (h : t.providers.lookup p = some q) :
    (statsOf p).Makes (· = t) (fun z u => u = t ∧ z = q.stats) := by
  rintro _ rfl z u hrun
  rw [statsOf_run h, Option.some.injEq, Prod.mk.injEq] at hrun
  exact ⟨hrun.2.symm, hrun.1.symm⟩

lemma statsOf_reads : (statsOf p).Makes (· = t) (fun z u => u = t ∧ ∃ q, t.providers.lookup p = some q ∧ z = q.stats) := by
  cases hq : t.providers.lookup p with
  | none =>
    rintro _ rfl z u hrun
    simp [statsOf, provider, Builder.ofOption, hq] at hrun
  | some q => exact (statsOf_makes hq).imp fun z u h => ⟨h.1, q, rfl, h.2⟩

lemma called_makes (act : Setting → Interning α) (item : α → Item) (m l : α → Option Bool) :
    Builder.Makes (do
      let (a, e) ← interning p act
      assignItem r (item a)
      return .interned e (m a) (l a) (← statsOf p)) (· = s) (Called s p r fun st => item <$> act st) := by
  refine (Builder.interning_makes p act).bind fun ⟨a, e⟩ => ?_
  rintro t ⟨q, hq, ha, he, rfl⟩
  dsimp only at ha he
  subst ha he
  refine Builder.Makes.bind (P := (· = _)) (Q := fun _ u => u = _) (.modify fun t ht => by rw [ht]) (fun _ =>
    (statsOf_makes (q := ((act s.setting).run (s.work q)).2.provider) ?_).bind fun z => .pure fun u hu => ?_) _ rfl
  · exact lookup_assign_self
  · obtain ⟨rfl, rfl⟩ := hu
    exact ⟨q, _, _, hq, rfl, rfl⟩

theorem Called.outcome {act : Setting → Interning Item} {whole : Item → Prop} {a : Answer} (hg : s.Good σ)
    (h : Called s p r act a t) (hi : s.register? r = some i)
    (hb : ∀ q, s.providers.lookup p = some q → Becomes s.setting ((s.without r).Keeps (some p)) σ (s.work q) i
      (whole i) ((act s.setting).run (s.work q)).2 ((act s.setting).run (s.work q)).1) :
    Outcome σ s p r whole a t := by
  obtain ⟨q, m, l, hq, ha, ht⟩ := h
  rw [ht]
  exact .inr ⟨q, i, _, _, m, l, _, hq, hi, ha, rfl, hg.yields hq hi (hb q hq)⟩

lemma keeps_of_beside {id : Nat} (h : s.Keeps (some p) id) : s.Keeps none id := by
  rcases h with h | h | ⟨b, hb, -, hr⟩
  · exact .inl h
  · exact .inr (.inl h)
  · exact .inr (.inr ⟨b, hb, by simp, hr⟩)

lemma Good.held (hg : s.Good σ) (r p : String) (id : Nat) (hk : (s.without r).Keeps (some p) id) :
    s.heldBeside (some r) (some p) id = true :=
  ((hg.without r).heldBeside_iff (some p) id).mpr hk

lemma Good.fits_register (hg : s.Good σ) (hi : s.register? r = some i) : σ.Fits i :=
  hg.registers _ (mem_of_lookup hi)

def Interns (s : Session) (p r : String) (a : Answer) (t : Session) : Prop :=
  ∃ i, s.register? r = some i ∧ (i = .nothing ∧ t = s ∧
    (∃ q, s.providers.lookup p = some q ∧ a = .internedNothing q.stats) ∨
    i ≠ .nothing ∧ Called s p r (fun st => i.intern st (s.heldBeside (some r) (some p))) a t)

theorem intern_calls (s : Session) (p r : String) : (intern p r).Makes (· = s) (Interns s p r) := by
  refine .bind (Q := fun u t => t = s ∧ u = s) (.get fun t ht => ⟨ht, ht⟩) fun u => ?_
  refine .weaken (P := fun t => t = s ∧ u = s) (.given fun hu => ?_) fun t ht => ht
  subst hu
  refine (Builder.register_reads r).bind fun i => .given fun hi => ?_
  have calls {act : Running} (hn : i ≠ .nothing) (h : act.Makes (· = u)
      (Called u p r fun st => i.intern st (u.heldBeside (some r) (some p)))) : act.Makes (· = u) (Interns u p r) :=
    h.imp fun a t h => ⟨i, hi, .inr ⟨hn, h⟩⟩
  cases i with
  | nothing =>
    refine statsOf_reads.bind fun z => .pure fun t ⟨ht, q, hq, hz⟩ => ⟨_, hi, .inl ⟨rfl, ht, q, hq, ?_⟩⟩
    rw [hz]
  | text t =>
    exact calls (by simp) (called_makes (fun st => poolText st t) .text (fun v => some (v.id != t.id)) fun _ => none)
  | entity k x =>
    exact calls (by simp) (called_makes (fun st => k.intern st (u.heldBeside (some r) (some p)) x) (.entity k)
      (fun y => some (y.id != x.id)) fun _ => none)
  | list k l =>
    exact calls (by simp) (called_makes (fun st => k.internList st l) (.list k)
      (fun m => some (m.identity != l.identity)) fun m => some m.sealed)
  | definition d =>
    exact calls (by simp) (called_makes (fun st => Definition.internMembers st d) .definition (fun _ => none)
      fun _ => none)

theorem internOptional_calls (s : Session) (p r : String) :
    (internOptional p r).Makes (· = s) (Interns s p r) := by
  refine (Builder.register_reads r).bind fun i => .given fun _ => ?_
  cases i with
  | nothing | entity => exact intern_calls s p r
  | _ => exact .failure

theorem Good.intern_becomes (hg : s.Good σ) (hq : s.providers.lookup p = some q) (hi : s.register? r = some i) :
    Becomes s.setting ((s.without r).Keeps (some p)) σ (s.work q) i (∀ d, i ≠ .definition d)
      ((i.intern s.setting (s.heldBeside (some r) (some p))).run (s.work q)).2
      ((i.intern s.setting (s.heldBeside (some r) (some p))).run (s.work q)).1 := by
  refine i.intern_becomes _ ((hg.without r).work hq) (hg.fits_register hi) (hg.held r p) fun d hd hk => ?_
  exact not_keeps_definition hg (hd ▸ hi) (keeps_of_beside hk)

lemma Interns.outcome {a : Answer} (hg : s.Good σ) (h : Interns s p r a t) :
    Outcome σ s p r (fun i => ∀ d, i ≠ .definition d) a t := by
  obtain ⟨i, hi, ⟨-, ht, q, -, ha⟩ | ⟨-, h⟩⟩ := h
  · exact .inl ⟨ht, by simp [ha]⟩
  · exact h.outcome hg hi fun q hq => hg.intern_becomes hq hi

theorem intern_makes (hg : s.Good σ) (p r : String) :
    (intern p r).Makes (· = s) (Outcome σ s p r fun i => ∀ d, i ≠ .definition d) :=
  (intern_calls s p r).imp fun _ _ h => h.outcome hg

lemma internOptional_makes (hg : s.Good σ) (p r : String) :
    (internOptional p r).Makes (· = s) (Outcome σ s p r fun i => ∀ d, i ≠ .definition d) :=
  (internOptional_calls s p r).imp fun _ _ h => h.outcome hg

theorem prepare_calls (s : Session) (p r : String) : (prepare p r).Makes (· = s) fun a t =>
    ∃ k x, s.register? r = some (.entity k x) ∧ (t = s ∧ a = .shared ∨ s.isSoleHolder r x.id = true ∧
      Called s p r (fun st => .entity k <$> k.prepareInPlace st (s.heldBeside (some r) (some p)) x) a t) := by
  refine (Builder.register_reads r).bind fun i => .given fun hi => ?_
  cases i with
  | entity k x =>
    refine .bind (Q := fun u t => t = s ∧ u = s) (.get fun t ht => ⟨ht, ht⟩) fun u => .given fun hu => ?_
    subst hu
    cases hs : u.isSoleHolder r x.id with
    | false => exact .pure fun t ht => ⟨k, x, hi, .inl ⟨ht, rfl⟩⟩
    | true =>
      refine (called_makes (fun st => k.prepareInPlace st (u.heldBeside (some r) (some p)) x) (.entity k)
        (fun _ => none) fun _ => none).imp fun a t h => ⟨k, x, hi, .inr ⟨hs, h⟩⟩
  | _ => exact .failure

theorem Good.prepare_becomes {k : Kind} {x : Handle k.Carrier} (hg : s.Good σ)
    (hq : s.providers.lookup p = some q) (hi : s.register? r = some (.entity k x))
    (hs : s.isSoleHolder r x.id = true) :
    Becomes s.setting ((s.without r).Keeps (some p)) σ (s.work q) (.entity k x) False
      ((k.prepareInPlace s.setting (s.heldBeside (some r) (some p)) x).run (s.work q)).2
      (.entity k ((k.prepareInPlace s.setting (s.heldBeside (some r) (some p)) x).run (s.work q)).1) := by
  have sole := not_keeps_of_sole hg hs
  obtain ⟨τ, hr, hc⟩ : Refills s.setting ((s.without r).Keeps (some p)) _ _ _ _ _ :=
    prepareInPlace_refills k _ x ((hg.without r).work hq) (hg.fits_register hi) (hg.held r p)
      (fun hk => sole (keeps_of_beside hk)) fun hreg => sole (.inr (.inr ⟨_, mem_of_lookup hq, by simp, hreg⟩))
  exact ⟨τ, hr, by simp, fun hf => ⟨False.elim, hc hf⟩⟩

theorem prepare_makes (hg : s.Good σ) (p r : String) :
    (prepare p r).Makes (· = s) (Outcome σ s p r fun _ => False) := by
  refine (prepare_calls s p r).imp fun a t ⟨k, x, hi, h⟩ => ?_
  rcases h with ⟨ht, ha⟩ | ⟨hs, h⟩
  · exact .inl ⟨ht, by simp [ha]⟩
  · exact h.outcome hg hi fun q hq => hg.prepare_becomes hq hi hs

structure Taken (σ : Store) (s : Session) (i : Item) (τ : Store) (t : Session) : Prop where
  good : t.Good τ
  later : Later σ s τ t
  preserves : σ.Preserves τ
  fits : τ.Fits i
  providers : t.providers = s.providers
  registers : ∀ b ∈ t.registers, b ∈ s.registers

lemma Built.preserves (hg : s.Good σ) (h : Built σ s τ t) : σ.Preserves τ where
  extends' := h.extends'
  object id i hi := ⟨i, (h.object id (hg.object id i hi)).trans hi, .refl i⟩

lemma Hand.taken {is : List Item} {free : List Nat} (hg : s.Good σ) (h : Hand σ s (i :: is) free t) :
    ∃ τ, Taken σ s i τ t := by
  obtain ⟨τ, good, hb, hf, -⟩ := h
  refine ⟨τ, good, hb.later hg, hb.preserves hg, hf i (by simp), by rw [hb.same], fun b hbt => ?_⟩
  rwa [hb.registers] at hbt

lemma take_makes (hg : s.Good σ) (source : ItemSource) :
    source.take.Makes (· = s) (fun i t => ∃ τ, Taken σ s i τ t) := by
  cases source with
  | recipe r =>
    refine (r.build_makes.weaken (P := Hand σ s [] []) fun t ht => ?_).imp fun i t h => h.1.taken hg
    rw [ht]
    exact hand_start hg
  | register name =>
    refine (Builder.register_reads name).bind fun i => .given fun hi => ?_
    refine .bind (Q := fun _ t => t = s.without name) (.modify fun t ht => by rw [ht]; rfl) fun _ => ?_
    apply Builder.Makes.pure
    intro t ht
    rw [ht]
    exact ⟨σ, hg.without name, { Later.refl σ s with }, .refl σ, hg.fits_register hi, rfl,
      fun b hb => (mem_unassign.mp hb).1⟩

def Delivery (σ : Store) (s : Session) (p : String) (source : ItemSource) (target : String) (a : Answer)
    (t : Session) : Prop :=
  (∃ τ, t.Good τ ∧ Later σ s τ t ∧ σ.Preserves τ ∧ (∀ b ∈ t.registers, b ∈ s.registers) ∧ ∀ v z, a ≠ .made v z) ∨
    ∃ q i u j v z, s.providers.lookup p = some q ∧ source.take.run s = some (i, u) ∧ a = .made v z ∧
      (∀ b ∈ u.registers, b ∈ s.registers) ∧ t.registers = assign target j u.registers ∧
      Yields σ s q.number i j True none t

lemma Taken.interned {u : Session} {whole : Prop} {w : Work} (h : Taken σ s i τ u)
    (hq : s.providers.lookup p = some q)
    (hb : Becomes u.setting (u.Keeps (some p)) τ (u.work q) i whole w j) :
    Yields σ s q.number i j whole w.failure (u.settled p w) := by
  obtain ⟨υ, hr, -, hc⟩ := hb
  obtain ⟨good, later⟩ := h.good.settled (h.providers ▸ hq) hr
  exact ⟨υ, good, h.later.trans later, h.preserves.trans ⟨hr.extends', hr.persists⟩, hr.fits _ (by simp),
    (List.forall₂_cons.mp hr.value).1, (p, w.provider), (mem_assign h.good.namedOnce).mpr (.inl rfl),
    hr.grows.number, hc⟩

lemma Yields.put {n : Nat} {whole : Prop} {e : Option ModelError} (h : Yields σ s n i j whole e t)
    (hd : ∀ d, j ≠ .definition d) (r : String) : Yields σ s n i j whole e (t.put r j) := by
  obtain ⟨τ, good, later, hp, hf, hm⟩ := h
  exact ⟨τ, good.put_item hf hd, { later with }, hp, hf, hm⟩

theorem Taken.intern_becomes {u : Session} (h : Taken σ s i τ u) (hq : u.providers.lookup p = some q)
    (hd : ∀ d, i ≠ .definition d) :
    Becomes u.setting (u.Keeps (some p)) τ (u.work q) i (∀ d, i ≠ .definition d)
      ((i.intern u.setting (u.heldBeside none (some p))).run (u.work q)).2
      ((i.intern u.setting (u.heldBeside none (some p))).run (u.work q)).1 :=
  i.intern_becomes _ (h.good.work hq) h.fits (fun id => (h.good.heldBeside_iff (some p) id).mpr) fun d he =>
    absurd he (hd d)

def Consumes (s : Session) (p : String) (source : ItemSource) (target : String) (a : Answer) (t : Session) : Prop :=
  ∃ k x u, source.take.run s = some (.entity k x, u) ∧ (u.heldBeside none none x.id = true ∧ t = u ∧ a = .shared ∨
    ∃ q j w, u.providers.lookup p = some q ∧
      (j, w) = ((Item.entity k x).intern u.setting (u.heldBeside none (some p))).run (u.work q) ∧
      ((∃ e, w.failure = some e ∧ a = .notMade e w.provider.stats ∧ t = u.settled p w) ∨
        (w.failure = none ∧ (∃ v, a = .made v w.provider.stats) ∧ t = (u.settled p w).put target j)))

theorem internObject_calls (s : Session) (p : String) (source : ItemSource) (target : String) :
    (internObject p source target).Makes (· = s) (Consumes s p source target) := by
  have taken : source.take.Makes (· = s) (fun i u => source.take.run s = some (i, u)) := by
    rintro _ rfl i u hrun
    exact hrun
  refine taken.bind fun i => ?_
  cases i with
  | entity k x =>
    intro u hrun
    refine Builder.Makes.bind (P := (· = u)) (Q := fun v t => t = u ∧ v = u) (.get fun t ht => ⟨ht, ht⟩)
      (fun v => .given fun hv => ?_) u rfl
    subst hv
    cases hs : v.heldBeside none none x.id with
    | true => exact .pure fun t ht => ⟨k, x, v, hrun, .inl ⟨hs, ht, rfl⟩⟩
    | false =>
      refine (Builder.interning_makes p fun st => k.intern st (v.heldBeside none (some p)) x).bind fun ⟨y, e⟩ => ?_
      rintro t ⟨q, hq, rfl, he, rfl⟩
      dsimp only at he
      have stats := statsOf_makes (t := v.settled p ((k.intern v.setting (v.heldBeside none (some p)) x).run
        (v.work q)).2) (p := p) lookup_assign_self
      cases e with
      | some e =>
        refine stats.bind (fun z => .pure fun t ht => ?_) _ rfl
        obtain ⟨rfl, rfl⟩ := ht
        exact ⟨k, x, v, hrun, .inr ⟨q, _, _, hq, rfl, .inl ⟨e, he.symm, rfl, rfl⟩⟩⟩
      | none =>
        refine Builder.Makes.bind (P := (· = _)) (Q := fun _ t => t = _) (.modify fun t ht => by rw [ht]) (fun _ =>
          (statsOf_makes lookup_assign_self).bind fun z => .pure fun t ht => ?_) _ rfl
        obtain ⟨rfl, rfl⟩ := ht
        exact ⟨k, x, v, hrun, .inr ⟨q, _, _, hq, rfl, .inr ⟨he.symm, ⟨_, rfl⟩, rfl⟩⟩⟩
  | _ => exact fun t _ => Builder.Makes.failure (P := fun _ => True) t trivial

theorem internObject_makes (hg : s.Good σ) (p : String) (source : ItemSource) (target : String) :
    (internObject p source target).Makes (· = s) (Delivery σ s p source target) := by
  refine (internObject_calls s p source target).imp fun a t ⟨k, x, u, hrun, h⟩ => ?_
  obtain ⟨τ, hu⟩ := take_makes hg source s rfl _ u hrun
  rcases h with ⟨-, rfl, rfl⟩ | ⟨q, j, w, hq, hrun', h⟩
  · exact .inl ⟨τ, hu.good, hu.later, hu.preserves, hu.registers, by simp⟩
  have becomes := hu.intern_becomes hq (by simp)
  rw [← hrun'] at becomes
  have kept (d : Handle Definition) : j ≠ .definition d := fun hd => by
    obtain ⟨-, -, hdef, -⟩ := becomes
    simpa using hdef d hd
  have done := hu.interned (hu.providers ▸ hq) becomes
  rcases h with ⟨e, -, rfl, rfl⟩ | ⟨he, ⟨v, rfl⟩, rfl⟩
  · obtain ⟨υ, good, later, hp, -⟩ := done
    exact .inl ⟨υ, good, later, hp, hu.registers, by simp⟩
  · rw [he] at done
    obtain ⟨υ, good, later, hp, hf, hm, b, hb, hn, hc⟩ := done.put kept target
    exact .inr ⟨q, _, u, j, v, _, hu.providers ▸ hq, hrun, rfl, hu.registers, rfl, υ, good, later, hp, hf, hm, b, hb,
      hn, fun he => ⟨fun _ => (hc he).1 (by simp), (hc he).2⟩⟩

lemma Yields.reaches {n : Nat} {whole : Prop} {e : Option ModelError} (h : Yields σ s n i j whole e t) :
    Reaches σ s t := by
  obtain ⟨τ, good, later, -⟩ := h
  exact ⟨τ, good, later⟩

lemma Outcome.reaches {whole : Item → Prop} {a : Answer} (hg : s.Good σ) (h : Outcome σ s p r whole a t) :
    Reaches σ s t := by
  rcases h with ⟨rfl, -⟩ | ⟨q, i, j, e, m, l, z, -, -, -, -, hy⟩
  · exact reaches_refl hg
  · exact hy.reaches

lemma intern_moves (p r : String) : Moves (run (.intern p r)) := fun _ _ hg =>
  (intern_makes hg p r).imp fun _ _ h => h.reaches hg

lemma internOptional_moves (p r : String) : Moves (run (.internOptional p r)) := fun _ _ hg =>
  (internOptional_makes hg p r).imp fun _ _ h => h.reaches hg

lemma prepare_moves (p r : String) : Moves (run (.prepare p r)) := fun _ _ hg =>
  (prepare_makes hg p r).imp fun _ _ h => h.reaches hg

lemma internObject_moves (p : String) (source : ItemSource) (target : String) :
    Moves (run (.internObject p source target)) := fun σ s hg => by
  refine (internObject_makes hg p source target).imp fun a t h => ?_
  rcases h with ⟨τ, good, later, -⟩ | ⟨q, i, u, j, v, z, -, -, -, -, -, hy⟩
  · exact ⟨τ, good, later⟩
  · exact hy.reaches

def Pools (s : Session) (p v target : String) (a : Answer) (t : Session) : Prop :=
  (∃ n, a = .texts n) ∧ ∃ q u, s.providers.lookup p = some q ∧ (Builder.text v).run s = some (⟨s.nextText, v⟩, u) ∧
    u.providers = s.providers ∧
    t = (u.settled p ((poolText u.setting ⟨s.nextText, v⟩).run (u.work q)).2).put target
      (.text ((poolText u.setting ⟨s.nextText, v⟩).run (u.work q)).1)

lemma internString_calls (s : Session) (p v target : String) :
    (run (.internString p v target)).Makes (· = s) (Pools s p v target) := by
  have made : (Builder.text v).Makes (· = s) (fun x u => x = ⟨s.nextText, v⟩ ∧
      (Builder.text v).run s = some (⟨s.nextText, v⟩, u) ∧ u.providers = s.providers) := by
    rintro _ rfl x u hrun
    obtain ⟨rfl, rfl⟩ := Prod.mk.inj (Option.some.inj hrun)
    exact ⟨rfl, rfl, rfl⟩
  refine made.bind fun x => ?_
  rintro u ⟨rfl, hrun, hp⟩
  refine Builder.Makes.bind (P := (· = u)) (Builder.interning_makes p _) (fun ⟨y, e⟩ => ?_) u rfl
  rintro t ⟨q, hq, rfl, -, rfl⟩
  refine Builder.Makes.bind (P := (· = _)) (Q := fun _ u => u = _) (.modify fun u hu => by rw [hu]) (fun _ =>
    (Builder.reads_makes (reads_provider p)).bind fun q => .pure fun t ht => ?_) _ rfl
  exact ⟨⟨_, rfl⟩, _, u, hp ▸ hq, hrun, hp, ht⟩

lemma internString_moves (p v target : String) : Moves (run (.internString p v target)) := by
  intro σ s hg
  refine (internString_calls s p v target).imp fun a t ⟨_, q, u, hq, hrun, hp, ht⟩ => ?_
  obtain ⟨τ, taken⟩ := (Builder.text_makes v s (hand_start hg) _ u hrun).taken hg
  have becomes : Becomes u.setting (u.Keeps (some p)) τ (u.work q) (.text ⟨s.nextText, v⟩) True _ _ :=
    (poolText_replaces _ (taken.good.work (hp ▸ hq)) taken.fits).becomes True (by simp)
  exact ht ▸ ((taken.interned hq becomes).put (by simp) target).reaches

end Session

end CodeModel
