import CodeModel.Proofs.Session.Intake
import CodeModel.Proofs.Session.Providers

/-! The steps that give an item to interning, and what they leave behind. -/

namespace CodeModel.Session

variable {σ τ : Store} {s t u : Session} {p r : String} {q : Provider} {st : Step} {i j : Item} {w v : Work}
  {a : Answer}

section Ends

lemma statsOf_settled : (statsOf p).run (s.settled p w) = some (w.provider.stats, s.settled p w) :=
  statsOf_run lookup_assign_self

lemma statsOf_put : (statsOf p).run ((s.settled p w).put r i) = some (w.provider.stats, (s.settled p w).put r i) :=
  statsOf_run lookup_assign_self

lemma intern_ends (hq : s.providers.lookup p = some q) (hi : s.register? r = some i) :
    ∃ a t, (intern p r).run s = some (a, t) := by
  unfold intern
  cases i <;> simp [register_run hi, interning_run hq, statsOf_run hq, assignItem, statsOf_put]

lemma internOptional_run (hi : s.register? r = some i) (h : i = .nothing ∨ ∃ k x, i = .entity k x) :
    (internOptional p r).run s = (intern p r).run s := by
  rcases h with rfl | ⟨k, x, rfl⟩ <;> simp [internOptional, register_run hi]

lemma take_run (hi : s.register? r = some i) : (ItemSource.register r).take.run s = some (i, s.without r) := by
  simp [ItemSource.take, register_run hi]
  rfl

variable {k : Kind} {x : Handle k.Carrier}

lemma internObject_ends {source : ItemSource} (hu : source.take.run s = some (.entity k x, u))
    (hq : u.providers.lookup p = some q) (hs : u.heldBeside none none x.id = false) (target : String) :
    ∃ a t, (internObject p source target).run s = some (a, t) ∧ a ≠ .shared := by
  unfold internObject
  simp only [bind_pure_comp, StateT.run_bind, hu, Option.bind_eq_bind, Option.bind_some, StateT.run_get,
    Option.pure_def, hs, Bool.false_eq_true, ↓reduceIte, interning_run hq]
  split
  · simp [statsOf_settled]
  · simp [assignItem, statsOf_put]

lemma prepare_ends (hq : s.providers.lookup p = some q) (hi : s.register? r = some (.entity k x))
    (hs : s.isSoleHolder r x.id = true) : ∃ a t, (prepare p r).run s = some (a, t) ∧ a ≠ .shared := by
  unfold prepare
  simp [register_run hi, hs, interning_run hq, assignItem, statsOf_put]

end Ends

/-- Step `st` gives item `i` to interning in provider `p`, and what that becomes goes to register `r`. Session `u` is
what there is beside the item. An entity that is interned by value, or prepared, has no other holder. -/
inductive Calls (s : Session) (p : String) : Step → String → Item → Session → Prop
  | intern {r : String} {i : Item} : s.register? r = some i →
    Calls s p (.intern p r) r i { s.without r with events := [] }
  | internOptional {r : String} {i : Item} : s.register? r = some i → i = .nothing ∨ (∃ k x, i = .entity k x) →
    Calls s p (.internOptional p r) r i { s.without r with events := [] }
  | internObject {source : ItemSource} {target : String} {k : Kind} {x : Handle k.Carrier} {u : Session} :
    source.take.run { s with events := [] } = some (.entity k x, u) → u.heldBeside none none x.id = false →
    Calls s p (.internObject p source target) target (.entity k x) u
  | prepare {r : String} {k : Kind} {x : Handle k.Carrier} : s.register? r = some (.entity k x) →
    s.isSoleHolder r x.id = true → Calls s p (.prepare p r) r (.entity k x) { s.without r with events := [] }

inductive Performs (u : Session) (p : String) : Step → Item → Interning Item → Prop
  | interns {st : Step} {i : Item} {held : Held} : st.isCall = true → (∀ id, u.Keeps (some p) id → held id = true) →
    (∀ d, i = .definition d → ¬ u.Keeps (some p) d.id) → Performs u p st i (i.intern u.setting held)
  | prepares {r : String} {k : Kind} {x : Handle k.Carrier} {held : Held} :
    Performs u p (.prepare p r) (.entity k x) (.entity k <$> k.prepareInPlace u.setting held x)

structure Leaves (u : Session) (p r : String) (v : Work) (j : Item) (a : Answer) (t : Session) : Prop where
  verdict : a.verdict? = some (v.failure, v.provider.stats)
  hasher : t.hasher = u.hasher
  providers : t.providers = assign p v.provider u.providers
  pools : t.pools = u.pools
  frozen : t.frozen = u.frozen
  events : t.events = v.events
  registers : ∀ b ∈ u.registers, b.1 ≠ r → b ∈ t.registers
  delivered : v.failure = none ∨ (∃ e m l z, a = .interned e m l z) → t.register? r = some j

structure Settles (s : Session) (p : String) (q : Provider) (st : Step) (r : String) (i : Item) (u : Session)
    (σ τ : Store) (v : Work) (j : Item) : Prop where
  good : u.Good σ
  fits : σ.Fits i
  aside : Aside { s with events := [] } u
  performs : ∃ act, Performs u p st i act ∧ (j, v) = act.run (u.work q)
  interned : st.isCall = true → (j, v) = (i.intern u.setting (u.heldBeside none (some p))).run (u.work q)
  rewrite : Rewrite u.setting (u.Keeps (some p)) σ (u.work q) [i] τ v [j]
  ended : (step s st).2.2.Good τ
  leaves : Leaves u p r v j (step s st).1 (step s st).2.2
  placed : (∀ source target, st ≠ .internObject p source target) → (step s st).2.2.register? r = some j

lemma Called.leaves {act : Setting → Interning Item} (hg : s.Good σ) (hq : s.providers.lookup p = some q)
    (h : Called s p r act a t) : Leaves (s.without r) p r ((act s.setting).run (s.work q)).2
      ((act s.setting).run (s.work q)).1 a t ∧
      t = (s.settled p ((act s.setting).run (s.work q)).2).put r ((act s.setting).run (s.work q)).1 := by
  obtain ⟨q', m, l, hq', rfl, rfl⟩ := h
  obtain rfl : q = q' := Option.some.inj (hq.symm.trans hq')
  refine ⟨⟨rfl, rfl, rfl, rfl, rfl, rfl, fun b hb hbr => ?_, fun _ => lookup_assign_self⟩, rfl⟩
  exact (mem_assign hg.boundOnce).mpr (.inr ⟨(mem_unassign.mp hb).1, hbr⟩)

lemma Interns.leaves (hg : s.Good σ) (hq : s.providers.lookup p = some q) (hi : s.register? r = some i)
    (h : Interns s p r a t) :
    ∃ τ v j, (j, v) = (i.intern s.setting (s.heldBeside (some r) (some p))).run (s.work q) ∧
      Rewrite s.setting ((s.without r).Keeps (some p)) σ (s.work q) [i] τ v [j] ∧ t.Good τ ∧
      Leaves (s.without r) p r v j a t ∧ t.register? r = some j := by
  obtain ⟨i', hi', h⟩ := h
  obtain rfl : i = i' := Option.some.inj (hi.symm.trans hi')
  rcases h with ⟨rfl, rfl, q', hq', rfl⟩ | ⟨-, h⟩
  · obtain rfl : q = q' := Option.some.inj (hq.symm.trans hq')
    refine ⟨σ, t.work q, .nothing, rfl, .refl (hg.work hq) (by simpa using Store.fits_nothing) rfl rfl id, hg, ?_⟩
    exact ⟨⟨rfl, rfl, (assign_same hq).symm, rfl, rfl, rfl, fun b hb _ => (mem_unassign.mp hb).1, fun _ => hi⟩, hi⟩
  · obtain ⟨leaves, rfl⟩ := h.leaves hg hq
    obtain ⟨τ, hr, good, -⟩ := hg.settled_put hq hi (hg.intern_becomes hq hi)
    exact ⟨τ, _, _, rfl, hr, good, leaves, lookup_assign_self⟩

lemma Consumes.leaves {source : ItemSource} {k : Kind} {x : Handle k.Carrier} (hg : s.Good σ)
    (hq : s.providers.lookup p = some q) (hu : source.take.run s = some (.entity k x, u))
    (h : Consumes s p source r a t) (ha : a ≠ .shared) :
    ∃ σ τ v j, u.Good σ ∧ σ.Fits (.entity k x) ∧
      (j, v) = ((Item.entity k x).intern u.setting (u.heldBeside none (some p))).run (u.work q) ∧
      Rewrite u.setting (u.Keeps (some p)) σ (u.work q) [.entity k x] τ v [j] ∧ t.Good τ ∧ Leaves u p r v j a t := by
  obtain ⟨τ, taken⟩ := take_makes hg source s rfl _ u hu
  have found : u.providers.lookup p = some q := taken.providers ▸ hq
  obtain ⟨k', x', u', hu', h⟩ := h
  rw [hu, Option.some.injEq, Prod.mk.injEq] at hu'
  obtain ⟨hx, rfl⟩ := hu'
  rw [← hx] at h
  obtain ⟨-, -, hshared⟩ | ⟨q', j, v, hq', ran, h⟩ := h
  · exact absurd hshared ha
  obtain rfl : q = q' := Option.some.inj (found.symm.trans hq')
  have becomes := taken.intern_becomes found (by simp)
  rw [← ran] at becomes
  obtain ⟨υ, hr, hd, -⟩ := becomes
  obtain ⟨ended, -⟩ := taken.good.settled found hr
  refine ⟨τ, υ, v, j, taken.good, taken.fits, ran, hr, ?_⟩
  rcases h with ⟨e, he, rfl, rfl⟩ | ⟨he, ⟨d, rfl⟩, rfl⟩
  · exact ⟨ended, by rw [he]; rfl, rfl, rfl, rfl, rfl, rfl, fun b hb _ => hb, by simp [he]⟩
  · have kept (d : Handle Definition) : j ≠ .definition d := fun hj => by simpa using hd d hj
    refine ⟨ended.put_item (hr.fits j (by simp)) kept, by rw [he]; rfl, rfl, rfl, rfl, rfl, rfl, fun b hb hbr => ?_,
      fun _ => lookup_assign_self⟩
    exact (mem_assign taken.good.boundOnce).mpr (.inr ⟨hb, hbr⟩)

theorem Calls.settles (hg : s.Good σ) (hq : s.providers.lookup p = some q) (h : Calls s p st r i u) :
    ∃ σ τ v j, Settles s p q st r i u σ τ v j := by
  obtain ⟨o, ho⟩ : ∃ o : Session, o = { s with events := [] } := ⟨_, rfl⟩
  have good : o.Good σ := ho ▸ hg.withEvents []
  have found : o.providers.lookup p = some q := by rw [ho, hq]
  have registers (r : String) : o.register? r = s.register? r := by rw [ho]; rfl
  have beside (r : String) : { s.without r with events := [] } = o.without r := by rw [ho]; rfl
  have aside (r : String) : Aside { s with events := [] } (o.without r) := ho ▸ without_aside o r
  have ends {a : Answer} {t : Session} (hrun : (run st).run o = some (a, t)) :
      (step s st).1 = a ∧ (step s st).2.2 = t := step_of_run (ho ▸ hrun)
  have interns {st : Step} {r : String} {i : Item} (hst : st.isCall = true) (hi : o.register? r = some i) :
      Performs (o.without r) p st i (i.intern o.setting (o.heldBeside (some r) (some p))) := by
    refine .interns (u := o.without r) hst (good.held r p) fun d hd hk => ?_
    exact not_keeps_definition good (hd ▸ hi) (keeps_of_beside hk)
  cases h with
  | intern hi =>
    rw [beside]
    rw [← registers] at hi
    obtain ⟨a, t, hrun⟩ := intern_ends found hi
    obtain ⟨rfl, rfl⟩ := ends hrun
    obtain ⟨τ, v, j, ran, hr, ended, leaves, placed⟩ := (intern_calls o p r o rfl _ _ hrun).leaves good found hi
    exact ⟨σ, τ, v, j, good.without r, good.fits_register hi, aside r, ⟨_, interns rfl hi, ran⟩, fun _ => ran, hr, ended,
      leaves, fun _ => placed⟩
  | internOptional hi hk =>
    rw [beside]
    rw [← registers] at hi
    obtain ⟨a, t, hrun⟩ := intern_ends found hi
    rw [← internOptional_run hi hk] at hrun
    obtain ⟨rfl, rfl⟩ := ends hrun
    obtain ⟨τ, v, j, ran, hr, ended, leaves, placed⟩ := (internOptional_calls o p r o rfl _ _ hrun).leaves good found hi
    exact ⟨σ, τ, v, j, good.without r, good.fits_register hi, aside r, ⟨_, interns rfl hi, ran⟩, fun _ => ran, hr, ended,
      leaves, fun _ => placed⟩
  | @prepare r k x hi hs =>
    rw [beside]
    rw [← registers] at hi
    have sole : o.isSoleHolder r x.id = true := by rw [ho]; exact hs
    obtain ⟨a, t, hrun, ha⟩ := prepare_ends found hi sole
    obtain ⟨rfl, rfl⟩ := ends hrun
    obtain ⟨k', x', hi', ⟨-, hs⟩ | ⟨-, called⟩⟩ := prepare_calls o p r o rfl _ _ hrun
    · exact absurd hs ha
    rw [hi, Option.some.injEq, Item.entity.injEq] at hi'
    obtain ⟨rfl, hx⟩ := hi'
    obtain rfl := eq_of_heq hx
    obtain ⟨leaves, ht⟩ := called.leaves good found
    obtain ⟨τ, hr, ended, -⟩ := good.settled_put found hi (good.prepare_becomes found hi sole)
    exact ⟨σ, τ, _, _, good.without r, good.fits_register hi, aside r, ⟨_, .prepares, rfl⟩, nofun, hr, ht ▸ ended,
      leaves, fun _ => ht ▸ lookup_assign_self⟩
  | @internObject source target k x _ hu hs =>
    rw [← ho] at hu
    have asideU : Aside o u := take_aside good source o rfl _ u hu
    have foundU : u.providers.lookup p = some q := asideU.providers ▸ found
    obtain ⟨a, t, hrun, ha⟩ := internObject_ends hu foundU hs r
    obtain ⟨rfl, rfl⟩ := ends hrun
    obtain ⟨σ', τ, v, j, goodU, fits, ran, hr, ended, leaves⟩ :=
      (internObject_calls o p source r o rfl _ _ hrun).leaves good found hu ha
    have performs : Performs u p (.internObject p source r) (.entity k x) _ :=
      .interns rfl (fun id => (goodU.heldBeside_iff (some p) id).mpr) (by simp)
    exact ⟨σ', τ, v, j, goodU, fits, ho ▸ asideU, ⟨_, performs, ran⟩, fun _ => ran, hr, ended, leaves,
      fun hst => absurd rfl (hst source r)⟩

lemma Leaves.receives (h : Leaves u p r v j a t) (intake : Intake u q i j v) : Receives u p q i r a t j v :=
  ⟨intake, h.verdict, by rw [h.providers, lookup_assign_self], fun hf => h.delivered (.inl hf)⟩

lemma Interns.receives (hg : s.Good σ) (hq : s.providers.lookup p = some q) (hi : s.register? r = some i)
    (h : Interns s p r a t) : ∃ j v, Receives (s.without r) p q i r a t j v := by
  obtain ⟨τ, v, j, ran, -, -, leaves, -⟩ := h.leaves hg hq hi
  have intake : Intake (s.without r) q i ((i.intern s.setting (s.heldBeside (some r) (some p))).run (s.work q)).1
      ((i.intern s.setting (s.heldBeside (some r) (some p))).run (s.work q)).2 :=
    intake_of_run ((hg.without r).work hq) (hg.fits_register hi) (hg.held r p) fun _ hd hk =>
      not_keeps_definition hg (hd ▸ hi) (keeps_of_beside hk)
  rw [← ran] at intake
  exact ⟨j, v, leaves.receives intake⟩

lemma Consumes.receives {source : ItemSource} {k : Kind} {x : Handle k.Carrier} (hg : s.Good σ)
    (hq : s.providers.lookup p = some q) (hu : source.take.run s = some (.entity k x, u))
    (h : Consumes s p source r a t) (ha : a ≠ .shared) : ∃ j v, Receives u p q (.entity k x) r a t j v := by
  obtain ⟨σ, τ, v, j, good, fits, ran, -, -, leaves⟩ := h.leaves hg hq hu ha
  have aside : Aside s u := take_aside hg source s rfl _ u hu
  have found : u.providers.lookup p = some q := aside.providers ▸ hq
  have intake := intake_of_run (good.work found) fits (fun id => (good.heldBeside_iff (some p) id).mpr) (by simp)
  rw [← ran] at intake
  exact ⟨j, v, leaves.receives intake⟩

theorem Settles.receives (h : Settles s p q st r i u σ τ v j) (hq : s.providers.lookup p = some q)
    (hst : st.isCall = true) : Receives u p q i r (step s st).1 (step s st).2.2 j v := by
  refine h.leaves.receives ?_
  obtain ⟨act, performs, ran⟩ := h.performs
  cases performs with
  | interns _ hheld hd =>
    have found : u.providers.lookup p = some q := h.aside.providers ▸ hq
    have intake := intake_of_run (h.good.work found) h.fits hheld hd
    rwa [← ran] at intake
  | prepares => cases hst

lemma Settles.work (h : Settles s p q st r i u σ τ v j) (hq : s.providers.lookup p = some q) :
    (u.work q).Good u.hasher σ :=
  h.good.work (h.aside.providers ▸ hq)

lemma Settles.outcome (h : Settles s p q st r i u σ τ v j) {e : Option ModelError} {n : Stats}
    (ok : (step s st).1.verdict? = some (e, n)) : v.failure = e ∧ v.provider.stats = n :=
  Prod.mk.inj (Option.some.inj (h.leaves.verdict.symm.trans ok))

end CodeModel.Session
