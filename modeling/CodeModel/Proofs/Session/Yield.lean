import CodeModel.Proofs.Interning.Yield
import CodeModel.Proofs.Session.Bystanders

namespace CodeModel.Session

variable {σ τ : Store} {s t u : Session} {p r : String} {q : Provider} {st : Step} {i j : Item} {v : Work} {a : Answer}
  {k : Kind} {x y : Handle k.Carrier}

lemma Interns.idle {es : List Event} {e : Option ModelError} (hq : s.providers.lookup p = some q)
    (hi : s.register? r = some i) (h : Interns s p r a t)
    (hrun : (i.intern s.setting (s.heldBeside (some r) (some p))).run (s.work q) =
      (i, { s.work q with events := es, failure := e })) :
    t = { s with events := es } ∧ a.verdict? = some (e, q.stats) := by
  obtain ⟨i', hi', h⟩ := h
  obtain rfl : i = i' := Option.some.inj (hi.symm.trans hi')
  rcases h with ⟨rfl, rfl, q', hq', rfl⟩ | ⟨-, q', m, l, hq', rfl, rfl⟩
  · obtain rfl : q = q' := Option.some.inj (hq.symm.trans hq')
    have same : t.work q = { t.work q with events := es, failure := e } := congrArg Prod.snd hrun
    obtain rfl : t.events = es := congrArg Work.events same
    obtain rfl : none = e := congrArg Work.failure same
    exact ⟨rfl, rfl⟩
  · obtain rfl : q = q' := Option.some.inj (hq.symm.trans hq')
    rw [hrun]
    exact ⟨by simp [Session.settled, work, put, assign_same hq, assign_same hi], rfl⟩

lemma not_registered_of_unheld (hq : u.providers.lookup p = some q) (hu : u.Good σ)
    (hs : u.heldBeside none none x.id = false) : ¬ q.Registered x.id := by
  intro registered
  have keeps : u.Keeps none x.id := .inr (.inr ⟨(p, q), mem_of_lookup hq, by simp, registered⟩)
  rw [(hu.heldBeside_iff none x.id).mpr keeps] at hs
  cases hs

lemma Interns.unmoved_canonical (hg : s.Good σ) (hq : s.providers.lookup p = some q)
    (hi : s.register? r = some (.entity k x)) (hx : q.HasEntry k x) (h : Interns s p r a t) : t = s := by
  have canonical := (hg.work hq).sound.isCanonical (s.heldBeside (some r) (some p)) hx
  have unmoved : (k.intern s.setting (s.heldBeside (some r) (some p)) x).run (s.work q) =
      (x, { s.work q with events := s.events, failure := none }) := canonicalize_run_canonical rfl canonical
  exact (h.idle hq hi (by rw [Item.intern, StateT.run_map, unmoved]; rfl)).1

theorem Calls.unmoved (hg : s.Good σ) (hq : s.providers.lookup p = some q) (h : Calls s p st r (.entity k x) u)
    (hst : st.isCall = true) (hx : q.HasEntry k x) : (step s st).2.2 = { s with events := [] } := by
  obtain ⟨o, ho⟩ : ∃ o : Session, o = { s with events := [] } := ⟨_, rfl⟩
  have good : o.Good σ := ho ▸ hg.withEvents []
  have found : o.providers.lookup p = some q := by rw [ho, hq]
  have registers (r : String) : o.register? r = s.register? r := by rw [ho]; rfl
  have ends {a : Answer} {t : Session} (hrun : (run st).run o = some (a, t)) : (step s st).2.2 = t :=
    (step_of_run (ho ▸ hrun)).2
  rw [← ho]
  have settles := h.settles hg hq
  cases h with
  | intern hi =>
    rw [← registers] at hi
    obtain ⟨a, t, hrun⟩ := intern_ends found hi
    rw [ends hrun]
    exact (intern_calls o p r o rfl _ _ hrun).unmoved_canonical good found hi hx
  | internOptional hi hk =>
    rw [← registers] at hi
    obtain ⟨a, t, hrun⟩ := intern_ends found hi
    rw [← internOptional_run hi hk] at hrun
    rw [ends hrun]
    exact (internOptional_calls o p r o rfl _ _ hrun).unmoved_canonical good found hi hx
  | internObject hu hs =>
    obtain ⟨τ, υ, v, j, settles⟩ := settles
    exact absurd ⟨k, x, hx, rfl⟩ (not_registered_of_unheld (settles.aside.providers ▸ hq) settles.good hs)
  | prepare => cases hst

lemma Settles.entity (h : Settles s p q st r (.entity k x) u σ τ v j) (hst : st.isCall = true) :
    ∃ y, j = .entity k y ∧
      (k.intern u.setting (u.heldBeside none (some p)) x).run (u.work q) = (y, v) := by
  have ran := h.interned hst
  rw [Item.intern, StateT.run_map] at ran
  obtain ⟨rfl, rfl⟩ := Prod.mk.inj ran
  exact ⟨_, rfl, rfl⟩

lemma heldBeside_unregistered (hu : u.Good σ) (hq : u.providers.lookup p = some q) {id : Nat}
    (hr : ¬ q.Registered id) : u.heldBeside none (some p) id = u.heldBeside none none id := by
  rw [Bool.eq_iff_iff, hu.heldBeside_iff, hu.heldBeside_iff]
  refine ⟨keeps_of_beside, Or.imp_right (Or.imp_right ?_)⟩
  rintro ⟨⟨m, c⟩, hb, -, registered⟩
  refine ⟨(m, c), hb, fun he => hr ?_, registered⟩
  obtain rfl : m = p := Option.some.inj he
  rwa [← Option.some.inj ((lookup_of_mem hu.namedOnce hb).symm.trans hq)]

lemma Settles.original (h : Settles s p q st r (.entity k x) u σ τ v j) (hq : u.providers.lookup p = some q)
    (hx : ¬ q.Registered x.id) (hk : u.Keeps (some p) x.id) :
    ¬ v.provider.Registered x.id ∧ ∀ b, (step s st).2.2.Holds b → b.label? = some x.id → b = .entity k x := by
  have known := h.fits.knows
  constructor
  · intro registered
    rcases h.rewrite.registered x.id registered with ⟨-, hn⟩ | hr | hn
    · exact hn hk
    · exact hx hr
    · exact absurd (h.good.object _ _ known) hn.not_gt
  · intro b hb hl
    have kept := h.good.kept hq h.rewrite (.inl (keeps_of_beside hk))
    have fits := h.ended.fits_of_holds hb
    rw [fits.object (.refl b) hl, known] at kept
    exact Option.some.inj kept

/-- A successful call yields the only canonical entity of its value: the item itself, an equal one, or a copy. -/
theorem interning_yields (hasher : Hasher) (options : Options) (steps : List Step)
    (hq : ((start hasher options).after steps).providers.lookup p = some q)
    (h : Calls ((start hasher options).after steps) p st r (.entity k x) u) (hst : st.isCall = true)
    (hk : k.isModel = true) {n : Stats}
    (ok : (step ((start hasher options).after steps) st).1.verdict? = some (none, n)) :
    let s := (start hasher options).after steps
    let t := (step s st).2.2
    ∃ y q', t.register? r = some (.entity k y) ∧ t.providers.lookup p = some q' ∧
      q'.Canonical hasher (.entity k y) ∧ (∀ held, q'.isCanonical hasher held k y = true) ∧
      (Item.entity k y).bare = (Item.entity k x).bare ∧
      (∀ z, q'.Canonical hasher (.entity k z) → (Item.entity k z).bare = (Item.entity k x).bare → z = y) ∧
      (q.Canonical hasher (.entity k x) → t = { s with events := [] }) ∧
      (∀ z, q.Canonical hasher (.entity k z) → (Item.entity k z).bare = (Item.entity k x).bare → y = z) ∧
      ((∀ z, q.Canonical hasher (.entity k z) → (Item.entity k z).bare ≠ (Item.entity k x).bare) →
        (u.heldBeside none none x.id = false → y.id = x.id) ∧
        (u.heldBeside none none x.id = true → u.nextObject ≤ y.id ∧ ¬ q'.Registered x.id ∧
          (∀ a, (u.without r).Holds a → t.Holds a) ∧ ∀ b, t.Holds b → b.label? = some x.id → b = .entity k x)) := by
  intro s t
  obtain ⟨σ₀, good, hash⟩ := start_good hasher options steps
  obtain ⟨σ, τ, v, j, settles⟩ := h.settles good hq
  have call := settles.receives hq hst
  obtain ⟨y, rfl, ran⟩ := settles.entity hst
  have hf : v.failure = none := congrArg Prod.fst (Option.some.inj (call.verdict.symm.trans ok))
  have found : u.providers.lookup p = some q := settles.aside.providers ▸ hq
  obtain rfl : u.hasher = hasher := settles.aside.hasher.trans hash
  have canonical : v.provider.Canonical u.hasher (.entity k y) := (call.intake.canonical hf).1 (by simp)
  have value : (Item.entity k y).bare = (Item.entity k x).bare := call.intake.means hk
  have unique (z : Handle k.Carrier) (hz : v.provider.Canonical u.hasher (.entity k z))
      (hb : (Item.entity k z).bare = (Item.entity k x).bare) : z = y :=
    (call.intake.sound.matches_of_bare (i := .entity k z) (j := .entity k y) hk hz canonical
      (hb.trans value.symm)).entity_eq
  refine ⟨y, v.provider, call.result hf, call.provider, canonical, fun held =>
    call.intake.sound.isCanonical held canonical, value, unique, h.unmoved good hq hst, fun z hz hb =>
    (unique z (.mono call.intake.grows hz) hb).symm, fun hnew => ?_⟩
  have fresh := Provider.bare_notMem_stock hnew
  have work := settles.good.work found
  have unregistered : ¬ q.Registered x.id := fun hr =>
    fresh ⟨.entity k x, (Provider.registered_iff work.fits settles.fits).mp hr, rfl⟩
  have beside := heldBeside_unregistered settles.good found unregistered
  have yields := Kind.intern_new hk work settles.fits (fun id => (settles.good.heldBeside_iff (some p) id).mpr) rfl
    (by rw [ran]; exact hf) fresh
  rw [ran, beside, show (u.work q).next = u.nextObject from rfl] at yields
  refine ⟨fun hheld => by simpa [hheld] using yields, fun hheld => ?_⟩
  obtain ⟨unregistered', kept⟩ := settles.original found unregistered
    ((settles.good.heldBeside_iff (some p) x.id).mp (beside.trans hheld))
  exact ⟨by simpa [hheld] using yields, unregistered', fun a ha => settles.holds hq ha, kept⟩

theorem interning_yields_copy :
    let s := (start .colliding ⟨false, 0⟩).after [.bind "t" (.entity .typeRef (.named "N" "T" [])),
      .bind "c" (.entity .constant (.make (.register "t") (.plain .null)))]
    let t := (step s (.intern "P" "t")).2.2
    ∃ x y, s.register? "t" = some (.entity .typeRef x) ∧ t.register? "t" = some (.entity .typeRef y) ∧
      s.nextObject ≤ y.id ∧ ∀ b, t.Holds b → b.label? = some x.id → b = .entity .typeRef x := by
  intro s t
  let q := Provider.create .colliding 0 1 ⟨false, 0⟩
  have lookup : s.providers.lookup "P" = some q := by
    obtain ⟨σ, good, -⟩ := start_good .colliding ⟨false, 0⟩ []
    exact (after_lookup_other good (by simp [Step.provider?])).trans (start_lookup _ _)
  have known : ∃ x : Handle TypeRef, s.register? "t" = some (.entity .typeRef x) ∧
      (s.without "t").heldBeside none none x.id = true ∧
      ∀ t : SharedType, (Item.entity .typeRef t.handle).bare ≠ (Item.entity .typeRef x).bare :=
    ⟨_, rfl, by decide +kernel, fun t he => by cases t <;> cases he⟩
  obtain ⟨x, hx, held, named⟩ := known
  have succeeds : ∃ n, (step s (.intern "P" "t")).1.verdict? = some (none, n) := ⟨_, rfl⟩
  obtain ⟨n, ok⟩ := succeeds
  obtain ⟨y, q', hy, -, -, -, -, -, -, -, yields⟩ :=
    interning_yields .colliding ⟨false, 0⟩ _ lookup (.intern hx) rfl rfl ok
  have new (z : Handle TypeRef) (hz : q.Canonical .colliding (.entity .typeRef z)) :
      (Item.entity .typeRef z).bare ≠ (Item.entity .typeRef x).bare := by
    obtain ⟨t, ht⟩ := Provider.hasEntry_create.mp hz
    exact ht ▸ named t
  obtain ⟨fresh, -, -, kept⟩ := (yields new).2 held
  exact ⟨x, y, hx, hy, fresh, kept⟩

end CodeModel.Session
