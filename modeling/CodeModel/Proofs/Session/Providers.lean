import CodeModel.Proofs.Session.Frames

/-! A step works on one provider at most, and reports the look-ups in it. -/

namespace CodeModel

def PoolAction.asks : PoolAction → Bool
  | get _ | isPooled _ | size => true
  | _ => false

/-- The step ends the life of the provider named `p`. -/
def Step.Ends (p : String) : Step → Prop
  | dropProvider q | newProvider q _ => q = p
  | _ => False

namespace Session

open Builder

variable {σ τ : Store} {s t u : Session} {p r : String} {q : Provider} {is : List Item} {free : List Nat}

section Spared

def Spared (s t : Session) : Prop :=
  t.providers = s.providers ∧ t.nextProvider = s.nextProvider ∧
    ∃ es, t.events = s.events ++ es ∧ ∀ e ∈ es, e.finding? = none

lemma Spared.refl (s : Session) : Spared s s := ⟨rfl, rfl, [], by simp⟩

lemma spared_framing (names : List String) : Framing names Spared where
  built hb := by
    rw [hb.same]
    exact .refl _
  put _ _ h := h
  without _ h := h
  frozen _ h := h
  emit {s t e} he h := by
    obtain ⟨hp, hn, es, hes, silent⟩ := h
    refine ⟨hp, hn, es ++ [e], by simp [Session.emit, hes], ?_⟩
    simpa [or_imp, forall_and, he] using silent

theorem run_spares (st : Step) (h : st.provider? = none) : Framed Spared (run st) := by
  by_cases hn : ∃ n, st = .newPool n
  · obtain ⟨n, rfl⟩ := hn
    rintro σ s -
    exact .bind (Q := fun _ => Spared s) (.modify fun t ht => ht ▸ .refl s) fun _ => .pure fun _ ht => ht
  · exact run_framed (spared_framing st.targets) h fun n hst => hn ⟨n, hst⟩

end Spared

lemma Hand.pools (h : Hand σ s is free t) : t.pools = s.pools := by
  obtain ⟨τ, -, hb, -⟩ := h
  rw [hb.same]

structure Takes (s : Session) (p : String) (q : Provider) (es : List Event) (q' : Provider) : Prop where
  grows : q.Grows s.hasher q'
  logs : q.Logs es q'
  registered : ∀ id, q'.Registered id → q.Registered id ∨ s.nextObject ≤ id ∨
    ∀ b ∈ s.providers, b.1 ≠ p → ¬ b.2.Registered id
  recorded : ∀ k, ∀ r ∈ q'.lists k, r ∈ q.lists k ∨ s.nextObject ≤ r.storage
  tables : (Kind.protocol s.hasher).Run q.entities q'.entities

def Serves (s : Session) (p : String) (t : Session) : Prop :=
  Spared s t ∨ ∃ q q' es, s.providers.lookup p = some q ∧ Takes s p q es q' ∧
    t.providers = assign p q' s.providers ∧ t.nextProvider = s.nextProvider ∧ t.events = s.events ++ es

lemma Serves.lookup_other {name : String} (h : Serves s p t) (hn : name ≠ p) :
    t.providers.lookup name = s.providers.lookup name := by
  rcases h with ⟨h, -⟩ | ⟨q, q', es, -, -, h, -⟩
  · rw [h]
  · rw [h, lookup_assign_other hn]

lemma Serves.lookup (h : Serves s p t) (hq : s.providers.lookup p = some q) :
    ∃ q', t.providers.lookup p = some q' ∧ q.Grows s.hasher q' := by
  rcases h with ⟨h, -⟩ | ⟨c, q', es, hc, takes, h, -⟩
  · exact ⟨q, h ▸ hq, .refl _ q⟩
  · obtain rfl : q = c := Option.some.inj (hq.symm.trans hc)
    exact ⟨q', h ▸ lookup_assign_self, takes.grows⟩

section Calls

structure Aside (s u : Session) : Prop where
  hasher : u.hasher = s.hasher
  providers : u.providers = s.providers
  nextProvider : u.nextProvider = s.nextProvider
  events : u.events = s.events
  nextObject : s.nextObject ≤ u.nextObject

lemma without_aside (s : Session) (r : String) : Aside s (s.without r) := ⟨rfl, rfl, rfl, rfl, le_rfl⟩

lemma Hand.aside (h : Hand σ s is free t) : Aside s t := by
  obtain ⟨τ, -, hb, -⟩ := h
  exact ⟨by rw [hb.same], by rw [hb.same], by rw [hb.same], by rw [hb.same], hb.nextObject⟩

lemma take_aside (hg : s.Good σ) (source : ItemSource) : source.take.Makes (· = s) (fun _ u => Aside s u) := by
  cases source with
  | recipe r =>
    refine (r.build_makes.weaken (P := Hand σ s [] []) fun t ht => ?_).imp fun i t h => h.1.aside
    rw [ht]
    exact hand_start hg
  | register name =>
    refine (Builder.register_reads name).bind fun i => .given fun hi => ?_
    refine .bind (Q := fun _ t => t = s.without name) (.modify fun t ht => by rw [ht]; rfl) fun _ => ?_
    exact .pure fun t ht => ht ▸ without_aside s name

lemma Aside.settled {js : List Item} {w : Work} (hu : Aside s u) (hq : s.providers.lookup p = some q)
    (hr : Rewrite u.setting (u.Keeps (some p)) σ (u.work q) is τ w js) (hl : (u.work q).Logs w) :
    Serves s p (u.settled p w) := by
  obtain ⟨es, he, logs⟩ := hl
  have grows : q.Grows u.hasher w.provider := hr.grows
  have tables : (Kind.protocol u.hasher).Run q.entities w.provider.entities := hr.tables
  rw [hu.hasher] at grows tables
  refine .inr ⟨q, w.provider, es, hq, ⟨grows, logs, fun id hid => ?_, fun k r hrec => ?_, tables⟩,
    by rw [← hu.providers]; rfl, hu.nextProvider, by rw [← hu.events]; exact he⟩
  · rcases hr.registered id hid with ⟨-, hk⟩ | hid | hn
    · refine .inr (.inr fun b hb hbp hid => hk ?_)
      exact .inr (.inr ⟨b, hu.providers ▸ hb, by simpa using hbp, hid⟩)
    · exact .inl hid
    · exact .inr (.inl (hu.nextObject.trans hn))
  · exact (hr.recorded k r hrec).imp_right hu.nextObject.trans

lemma Aside.becomes {whole : Prop} {i j : Item} {w : Work} (hu : Aside s u) (hq : s.providers.lookup p = some q)
    (hb : Becomes u.setting (u.Keeps (some p)) σ (u.work q) i whole w j) (hl : (u.work q).Logs w) :
    Serves s p (u.settled p w) := by
  obtain ⟨τ, hr, -⟩ := hb
  exact hu.settled hq hr hl

lemma Called.serves {act : Setting → Interning Item} {a : Answer} (h : Called s p r act a t)
    (hb : ∀ q, s.providers.lookup p = some q → ∃ i whole,
      Becomes s.setting ((s.without r).Keeps (some p)) σ (s.work q) i whole ((act s.setting).run (s.work q)).2
        ((act s.setting).run (s.work q)).1)
    (hl : ∀ w, Work.Logs w ((act s.setting).run w).2) : Serves s p t := by
  obtain ⟨q, m, l, hq, -, rfl⟩ := h
  obtain ⟨i, whole, becomes⟩ := hb q hq
  exact (without_aside s r).becomes hq becomes (hl _)

lemma Interns.serves {a : Answer} (hg : s.Good σ) (h : Interns s p r a t) : Serves s p t := by
  obtain ⟨i, hi, ⟨-, rfl, -⟩ | ⟨-, h⟩⟩ := h
  · exact .inl (.refl t)
  · exact h.serves (fun q hq => ⟨_, _, hg.intern_becomes hq hi⟩) fun _ => i.intern_logs _

lemma prepare_serves (hg : s.Good σ) (p r : String) : (prepare p r).Makes (· = s) (fun _ t => Serves s p t) := by
  refine (prepare_calls s p r).imp fun a t ⟨k, x, hi, h⟩ => ?_
  rcases h with ⟨rfl, -⟩ | ⟨hs, h⟩
  · exact .inl (.refl t)
  · exact h.serves (fun q hq => ⟨_, _, hg.prepare_becomes hq hi hs⟩) fun _ => prepareInPlace_logs _ x

lemma internObject_serves (hg : s.Good σ) (p : String) (source : ItemSource) (target : String) :
    (internObject p source target).Makes (· = s) (fun _ t => Serves s p t) := by
  refine (internObject_calls s p source target).imp fun a t ⟨k, x, u, hrun, h⟩ => ?_
  obtain ⟨τ, hu⟩ := take_makes hg source s rfl _ u hrun
  have aside : Aside s u := take_aside hg source s rfl _ u hrun
  rcases h with ⟨-, rfl, -⟩ | ⟨q, j, w, hq, hrun', h⟩
  · exact .inl ⟨aside.providers, aside.nextProvider, [], by simp [aside.events], by simp⟩
  have becomes := hu.intern_becomes hq (by simp)
  have logs := (Item.entity k x).intern_logs (s := u.setting) (w := u.work q) (u.heldBeside none (some p))
  rw [← hrun'] at becomes logs
  have served := aside.becomes (aside.providers ▸ hq) becomes logs
  rcases h with ⟨e, -, -, rfl⟩ | ⟨-, -, rfl⟩ <;> exact served

lemma internString_serves (hg : s.Good σ) (p v target : String) :
    (run (.internString p v target)).Makes (· = s) (fun _ t => Serves s p t) := by
  refine (internString_calls s p v target).imp fun a t ⟨_, q, u, hq, hrun, hp, ht⟩ => ?_
  have hand := text_makes v s (hand_start hg) _ u hrun
  obtain ⟨τ, taken⟩ := hand.taken hg
  obtain ⟨υ, hr, -⟩ : Replaces u.setting (u.Keeps (some p)) _ _ _ _ _ :=
    poolText_replaces ⟨s.nextText, v⟩ (taken.good.work (hp ▸ hq)) taken.fits
  exact ht ▸ hand.aside.settled hq hr (poolText_logs _)

lemma putPool_providers {name : String} {c : TextPool} (c' : TextPool) (hp : t.providers = s.providers)
    (hl : t.pools = s.pools) (hc : s.pool? name = some c) : (t.putPool name c').providers = s.providers ∨
      ∃ q, s.providers.lookup name = some q ∧ c = q.pool ∧
        (t.putPool name c').providers = assign name { q with pool := c' } s.providers := by
  rcases Option.or_eq_some_iff.mp hc with hc | ⟨hn, hc⟩
  · rw [putPool_pool (hl ▸ hc)]
    exact .inl hp
  · obtain ⟨q, hq, rfl⟩ := Option.map_eq_some_iff.mp hc
    rw [putPool_provider (hl ▸ hn) (hp ▸ hq), hp]
    exact .inr ⟨q, hq, rfl, rfl⟩

lemma putPool_rest (t : Session) (name : String) (c : TextPool) :
    (t.putPool name c).nextProvider = t.nextProvider ∧ (t.putPool name c).events = t.events := by
  unfold putPool
  split
  · exact ⟨rfl, rfl⟩
  · split <;> exact ⟨rfl, rfl⟩

lemma takes_pool {c : TextPool} (hg : q.pool.Grows s.hasher c) : Takes s p q [] { q with pool := c } where
  grows := Provider.grows_pool hg
  logs := .silent (by simp) rfl rfl rfl rfl rfl
  registered _ hid := .inl hid
  recorded _ _ hr := .inl hr
  tables := .refl

lemma pool_serves (hg : s.Good σ) (name : String) (action : PoolAction) (target : Option String) :
    (run (.pool name action target)).Makes (· = s) (fun _ t => Serves s name t) := by
  refine pool_makes (Q := fun _ => Serves s name) (act_makes hg · action) (fun c o t hc ht => ?_)
    fun _ => keep_holds fun t r i _ ht => ht
  obtain ⟨is, ht, pooled⟩ := ht
  have aside := ht.aside
  obtain ⟨next, events⟩ := putPool_rest t name o.2
  rw [aside.nextProvider] at next
  rw [aside.events] at events
  rcases putPool_providers o.2 aside.providers ht.pools hc with h | ⟨q, hq, rfl, h⟩
  · exact .inl ⟨h, next, [], by simp [events], by simp⟩
  · exact .inr ⟨q, _, [], hq, takes_pool pooled.grows, h, next, by simp [events]⟩

lemma act_asks (hg : s.Good σ) {c : TextPool} {action : PoolAction} (h : action.asks = true) :
    (act s.hasher c action).Makes (· = s) (fun o t => o.2 = c ∧ t.providers = s.providers ∧ t.pools = s.pools) := by
  refine .weaken (P := Hand σ s [] []) ?_ fun t ht => ht.symm ▸ hand_start hg
  cases action with
  | get | size => exact .pure fun t ht => ⟨rfl, ht.aside.providers, ht.pools⟩
  | isPooled r => exact r.build_makes.bind fun v => .pure fun t ht => ⟨rfl, ht.aside.providers, ht.pools⟩
  | _ => cases h

lemma pool_asks (hg : s.Good σ) (name : String) {action : PoolAction} (h : action.asks = true)
    (target : Option String) : (run (.pool name action target)).Makes (· = s)
      (fun _ t => t.providers.lookup name = s.providers.lookup name) := by
  refine pool_makes (Q := fun _ t => t.providers.lookup name = s.providers.lookup name) (fun c => act_asks hg h)
    (fun c o t hc ht => ?_) fun _ => keep_holds fun t r i _ ht => ht
  obtain ⟨same, hp, hl⟩ := ht
  rcases putPool_providers o.2 hp hl hc with h | ⟨q, hq, rfl, h⟩
  · rw [h]
  · rw [h, hq, same]
    exact lookup_assign_self

end Calls

theorem run_serves (hg : s.Good σ) (st : Step) (hp : st.provider? = some p) (he : ¬ st.Ends p) :
    (run st).Makes (· = s) (fun _ t => Serves s p t) := by
  cases st with
  | intern p r =>
    obtain rfl := Option.some.inj hp
    exact (intern_calls s p r).imp fun _ _ h => h.serves hg
  | internOptional p r =>
    obtain rfl := Option.some.inj hp
    exact (internOptional_calls s p r).imp fun _ _ h => h.serves hg
  | internObject p source target =>
    obtain rfl := Option.some.inj hp
    exact internObject_serves hg p source target
  | prepare p r =>
    obtain rfl := Option.some.inj hp
    exact prepare_serves hg p r
  | internString p v target =>
    obtain rfl := Option.some.inj hp
    exact internString_serves hg p v target
  | pool name action target =>
    obtain rfl := Option.some.inj hp
    exact pool_serves hg name action target
  | dropProvider q | newProvider q => exact absurd (Option.some.inj hp) he
  | _ => simp [Step.provider?] at hp

section Steps

variable {st : Step}

lemma step_reports {Q : Session → Prop} (h : (run st).Makes (· = { s with events := [] }) fun _ => Q)
    (hs : Q { s with events := [] }) : Q { (step s st).2.2 with events := (step s st).2.1 } := by
  cases hrun : (run st).run { s with events := [] } with
  | none => simpa only [step, hrun] using hs
  | some r => simpa only [step, hrun] using h _ rfl r.1 r.2 hrun

theorem step_spared (hg : s.Good σ) (hp : st.provider? = none) :
    Spared { s with events := [] } { (step s st).2.2 with events := (step s st).2.1 } :=
  step_reports (run_spares st hp σ _ (hg.withEvents [])) (.refl _)

theorem step_serves (hg : s.Good σ) (hp : st.provider? = some p) (he : ¬ st.Ends p) :
    Serves { s with events := [] } p { (step s st).2.2 with events := (step s st).2.1 } :=
  step_reports (run_serves (hg.withEvents []) st hp he) (.inl (.refl _))

lemma newProvider_step (s : Session) (p : String) (options : Options) : (step s (.newProvider p options)).2 =
    ([.created s.nextProvider options], { s with events := [] }.addProvider p options) := by
  simp [step, run, addProvider, Session.provider, ofOption, lookup_assign_self]

lemma newProvider_providers (p : String) (options : Options) : (step s (.newProvider p options)).2.2.providers =
    assign p (Provider.create s.hasher s.nextProvider s.nextText options) s.providers := by
  rw [newProvider_step]
  rfl

inductive Effect (s : Session) (es : List Event) (t : Session) : Prop
  | spared : t.providers = s.providers → t.nextProvider = s.nextProvider → (∀ e ∈ es, e.finding? = none) →
    Effect s es t
  | took {p : String} {q q' : Provider} : s.providers.lookup p = some q → Takes s p q es q' →
    t.providers = assign p q' s.providers → t.nextProvider = s.nextProvider → Effect s es t
  | dropped {p : String} : t.providers = unassign p s.providers → t.nextProvider = s.nextProvider → es = [] →
    Effect s es t
  | created {p : String} {options : Options} :
    t.providers = assign p (.create s.hasher s.nextProvider s.nextText options) s.providers →
    t.nextProvider = s.nextProvider + 1 → es = [.created s.nextProvider options] → Effect s es t

theorem step_effect (hg : s.Good σ) (st : Step) : Effect s (step s st).2.1 (step s st).2.2 := by
  have spared (h : Spared { s with events := [] } { (step s st).2.2 with events := (step s st).2.1 }) :
      Effect s (step s st).2.1 (step s st).2.2 := by
    obtain ⟨hp, hn, es, he, silent⟩ := h
    obtain rfl : (step s st).2.1 = es := he
    exact .spared hp hn silent
  cases hst : st.provider? with
  | none => exact spared (step_spared hg hst)
  | some p =>
    by_cases he : st.Ends p
    · cases st with
      | dropProvider q => exact .dropped rfl rfl rfl
      | newProvider q options =>
        rw [newProvider_step]
        exact .created rfl rfl rfl
      | _ => exact he.elim
    · rcases step_serves hg hst he with h | ⟨q, q', es, hq, takes, hp, hn, hes⟩
      · exact spared h
      · obtain rfl : (step s st).2.1 = es := hes
        exact .took hq { takes with } hp hn

theorem step_lookup_other (hg : s.Good σ) (hp : st.provider? ≠ some p) :
    (step s st).2.2.providers.lookup p = s.providers.lookup p := by
  cases hst : st.provider? with
  | none =>
    have same : (step s st).2.2.providers = s.providers := (step_spared hg hst).1
    rw [same]
  | some name =>
    have ne : p ≠ name := by
      rintro rfl
      exact hp hst
    by_cases he : st.Ends name
    · cases st with
      | dropProvider q =>
        obtain rfl : q = name := he
        exact lookup_unassign_other ne
      | newProvider q options =>
        obtain rfl : q = name := he
        rw [newProvider_providers, lookup_assign_other ne]
      | _ => exact he.elim
    · exact (step_serves hg hst he).lookup_other ne

theorem step_lookup (hg : s.Good σ) (he : ¬ st.Ends p) (hq : s.providers.lookup p = some q) :
    ∃ q', (step s st).2.2.providers.lookup p = some q' ∧ q.Grows s.hasher q' := by
  by_cases hp : st.provider? = some p
  · exact (step_serves hg hp he).lookup hq
  · exact ⟨q, (step_lookup_other hg hp).trans hq, .refl _ q⟩

theorem after_lookup_other {steps : List Step} (hg : s.Good σ) (h : ∀ st ∈ steps, st.provider? ≠ some p) :
    (s.after steps).providers.lookup p = s.providers.lookup p := by
  induction steps generalizing s σ with
  | nil => rfl
  | cons st steps ih =>
    simp only [List.mem_cons, forall_eq_or_imp] at h
    obtain ⟨τ, good, -⟩ := step_reaches hg st
    exact (ih good h.2).trans (step_lookup_other hg h.1)

lemma start_lookup (hasher : Hasher) (options : Options) :
    (start hasher options).providers.lookup "P" = some (Provider.create hasher 0 1 options) := lookup_assign_self

theorem after_lookup {steps : List Step} (hg : s.Good σ) (he : ∀ st ∈ steps, ¬ st.Ends p)
    (hq : s.providers.lookup p = some q) :
    ∃ q', (s.after steps).providers.lookup p = some q' ∧ q.Grows s.hasher q' := by
  induction steps generalizing s σ q with
  | nil => exact ⟨q, hq, .refl _ q⟩
  | cons st steps ih =>
    simp only [List.mem_cons, forall_eq_or_imp] at he
    obtain ⟨c, hc, grows⟩ := step_lookup hg he.1 hq
    obtain ⟨τ, good, later⟩ := step_reaches hg st
    obtain ⟨q', hq', grows'⟩ := ih good he.2 hc
    rw [later.hasher] at grows'
    exact ⟨q', hq', grows.trans grows'⟩

end Steps

end Session

end CodeModel
