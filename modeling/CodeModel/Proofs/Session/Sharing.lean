import CodeModel.Proofs.Graph.Places
import CodeModel.Proofs.Session.Meaning

namespace CodeModel

namespace Session

variable {σ τ : Store} {s t : Session} {st : Step} {n : Nat} {e : Option ModelError} {i j : Item}

def number? (s : Session) (p : String) : Option Nat := (s.providers.lookup p).map Provider.number

structure Returns (s : Session) (st : Step) (r : String) (e : Option ModelError) (i j : Item) : Prop where
  before : s.register? r = some i
  answer : ∃ m l z, (step s st).1 = .interned e m l z
  after' : (step s st).2.2.register? r = some j

/-- Step `st` gives item `i` to interning in the provider of number `n`, and `j` is there for it afterwards.
Preparing an entity and interning the members of a definition give the parts. -/
inductive Hands (s : Session) : Step → Nat → Option ModelError → Item → Item → Prop
  | intern {p r n e i j} : s.number? p = some n → (∀ d, i ≠ .definition d) → Returns s (.intern p r) r e i j →
    Hands s (.intern p r) n e i j
  | internOptional {p r n e i j} : s.number? p = some n → (∀ d, i ≠ .definition d) →
    Returns s (.internOptional p r) r e i j → Hands s (.internOptional p r) n e i j
  | internMembers {p r n e d h i j} {c : Nat} : s.number? p = some n →
    Returns s (.intern p r) r e (.definition d) h → d.val.parts[c]? = some i → h.parts[c]? = some j →
    Hands s (.intern p r) n e i j
  | prepare {p r n e g h i j} {c : Nat} : s.number? p = some n → Returns s (.prepare p r) r e g h →
    g.parts[c]? = some i → h.parts[c]? = some j → Hands s (.prepare p r) n e i j
  | internObject {p source target n i j u v z} : s.number? p = some n →
    source.take.run { s with events := [] } = some (i, u) →
    (step s (.internObject p source target)).1 = .made v z →
    (step s (.internObject p source target)).2.2.register? target = some j →
    Hands s (.internObject p source target) n none i j

/-- In step `st` the provider of number `n` interned `a` and made it `b`: as what it was given, or in some
place of that. After a failure this goes for what the provider has in its tables by then. -/
def Interned (s : Session) (st : Step) (n : Nat) (a b : Item) : Prop :=
  ∃ e i j, Hands s st n e i j ∧ Item.Along i j a b ∧
    (e = none ∨ ∃ c ∈ (step s st).2.2.providers, c.2.number = n ∧ c.2.Canonical s.hasher b)

lemma provider_of_number? {p : String} (h : s.number? p = some n) :
    ∃ q, s.providers.lookup p = some q ∧ q.number = n :=
  Option.map_eq_some_iff.mp h

lemma Returns.yields {p r : String} {whole : Item → Prop} (hr : Returns s st r e i j)
    (hn : s.number? p = some n)
    (h : (run st).Makes (· = { s with events := [] }) (Outcome σ { s with events := [] } p r whole)) :
    Yields σ s n i j (whole i) e (step s st).2.2 := by
  obtain ⟨q, hq, rfl⟩ := provider_of_number? hn
  obtain ⟨m, l, z, ha⟩ := hr.answer
  rcases step_makes s st h with (⟨-, hne⟩ | ⟨q', i', j', e', m', l', z', hq', hi', ha', hj', hy⟩) | ⟨hne, -⟩
  · exact absurd ha (hne e m l z)
  · obtain rfl : q = q' := Option.some.inj (hq.symm.trans hq')
    obtain rfl : i = i' := Option.some.inj (hr.before.symm.trans hi')
    obtain rfl : j = j' := by
      have := hr.after'
      rw [register?, hj', lookup_assign_self] at this
      exact (Option.some.inj this).symm
    obtain ⟨rfl, -⟩ := Answer.interned.inj (ha.symm.trans ha')
    obtain ⟨τ, good, later, rest⟩ := hy
    exact ⟨τ, good, { later with }, rest⟩
  · simp [hne] at ha

lemma along_part {g h : Item} {c : Nat} (hi : g.parts[c]? = some i) (hj : h.parts[c]? = some j) :
    Item.Along g h i j :=
  .part hi hj (.here i j)

theorem Hands.spec (hg : s.Good σ) (h : Hands s st n e i j) :
    ∃ g g' τ, Item.Along g g' i j ∧ g.Means g' ∧ (step s st).2.2.Good τ ∧ Later σ s τ (step s st).2.2 ∧
      ∃ b ∈ (step s st).2.2.providers, b.2.number = n ∧ (e = none → b.2.Canonical (step s st).2.2.hasher j) := by
  have hg' := hg.withEvents []
  cases h with
  | intern hn hd hr =>
    obtain ⟨τ, good, later, -, -, means, b, hb, number, hc⟩ := hr.yields hn (intern_makes hg' _ _)
    exact ⟨i, j, τ, .here i j, means, good, later, b, hb, number, fun he => (hc he).1 hd⟩
  | internOptional hn hd hr =>
    obtain ⟨τ, good, later, -, -, means, b, hb, number, hc⟩ := hr.yields hn (internOptional_makes hg' _ _)
    exact ⟨i, j, τ, .here i j, means, good, later, b, hb, number, fun he => (hc he).1 hd⟩
  | internMembers hn hr hi hj =>
    obtain ⟨τ, good, later, -, -, means, b, hb, number, hc⟩ := hr.yields hn (intern_makes hg' _ _)
    exact ⟨_, _, τ, along_part hi hj, means, good, later, b, hb, number, fun he =>
      (hc he).2 j (List.mem_of_getElem? hj)⟩
  | prepare hn hr hi hj =>
    obtain ⟨τ, good, later, -, -, means, b, hb, number, hc⟩ := hr.yields hn (prepare_makes hg' _ _)
    exact ⟨_, _, τ, along_part hi hj, means, good, later, b, hb, number, fun he =>
      (hc he).2 j (List.mem_of_getElem? hj)⟩
  | @internObject p source target n i j u v z hn hi ha hj =>
    obtain ⟨q, hq, rfl⟩ := provider_of_number? hn
    rcases step_makes s (.internObject p source target) (internObject_makes hg' p source target) with
      (⟨-, -, -, -, -, hne⟩ | ⟨q', i', u', j', v', z', hq', hi', -, -, hr, hy⟩) | ⟨hne, -⟩
    · exact absurd ha (hne v z)
    · obtain rfl : q = q' := Option.some.inj (hq.symm.trans hq')
      obtain ⟨rfl, -⟩ : i = i' ∧ u = u' := by simpa using hi.symm.trans hi'
      obtain rfl : j = j' := by
        rw [register?, hr, lookup_assign_self] at hj
        exact (Option.some.inj hj).symm
      obtain ⟨τ, good, later, -, -, means, b, hb, number, hc⟩ := hy
      exact ⟨i, j, τ, .here i j, means, good, { later with }, b, hb, number, fun he => (hc he).1 trivial⟩
    · simp [hne] at ha

variable {k : Kind} {x y x' y' : Handle k.Carrier}

theorem Interned.canonical {a b : Item} (hg : s.Good σ) (hm : a.IsModel) (hn : a ≠ .nothing) (h : Interned s st n a b) :
    ∃ τ, (step s st).2.2.Good τ ∧ Later σ s τ (step s st).2.2 ∧ b.bare = a.bare ∧
      ∃ c ∈ (step s st).2.2.providers, c.2.number = n ∧ c.2.Canonical s.hasher b := by
  obtain ⟨e, i, j, hands, along, hc⟩ := h
  obtain ⟨g, g', τ, along', means, good, later, b, hb, number, canonical⟩ := hands.spec hg
  have whole := along'.trans along
  have value := whole.bare_eq (means (Item.isModel_of_within hm hn whole.within_left))
  refine ⟨τ, good, later, value, ?_⟩
  rcases hc with he | ⟨c, hc, hcn, entry⟩
  · have within := (good.sound b hb).canonical_within (canonical he) along.within_right
    exact ⟨b, hb, number, later.hasher ▸ within⟩
  · exact ⟨c, hc, hcn, entry⟩

theorem Interned.entry (hg : s.Good σ) (hk : k.isModel = true) (h : Interned s st n (.entity k x) (.entity k y)) :
    ∃ τ, (step s st).2.2.Good τ ∧ Later σ s τ (step s st).2.2 ∧ k.bare y.val = k.bare x.val ∧
      ∃ b ∈ (step s st).2.2.providers, b.2.number = n ∧ b.2.HasEntry k y := by
  obtain ⟨τ, good, later, value, entry⟩ := h.canonical hg ((Item.isModel_entity k x).mpr hk) (by simp)
  exact ⟨τ, good, later, by simpa [Handle.bare] using value, entry⟩

lemma Later.grows {υ : Store} (hg : s.Good σ) (h : Later σ s υ t) {b c : String × Provider} (hb : b ∈ s.providers)
    (hc : c ∈ t.providers) (hn : c.2.number = b.2.number) : b.2.Grows s.hasher c.2 := by
  rcases h.providers c hc with ⟨d, hd, grows⟩ | hge
  · rwa [hg.numberedOnce b hb d hd (hn.symm.trans grows.number)]
  · have := hg.numbered b hb
    omega

lemma Good.entry_iff (hg : s.Good σ) (hk : k.isModel = true) {b : String × Provider} (hb : b ∈ s.providers)
    (hy : b.2.HasEntry k y) (hy' : b.2.HasEntry k y') : y.id = y'.id ↔ k.bare y.val = k.bare y'.val := by
  have fits := hg.providers b hb
  constructor
  · intro hid
    rw [Store.entity_eq (fits _ (.entry hy)) (fits _ (.entry hy')) hid]
  · intro hbare
    have matching := (hg.sound b hb).matches_of_bare (i := .entity k y) (j := .entity k y') hk hy hy'
      (by simp [Handle.bare, hbare])
    rw [matching.entity_eq]

lemma after_succ {steps : List Step} {m : Nat} (s : Session) (h : steps[m]? = some st) :
    s.after (steps.take (m + 1)) = (step (s.after (steps.take m)) st).2.2 := by
  rw [List.take_add_one, h, after_append]
  rfl

lemma interned_iff {steps : List Step} {m d : Nat} {st' : Step} (hg : s.Good σ) (hk : k.isModel = true)
    (hst : steps[m]? = some st) (hst' : steps[m + d]? = some st')
    (h : Interned (s.after (steps.take m)) st n (.entity k x) (.entity k y))
    (h' : Interned (s.after (steps.take (m + d))) st' n (.entity k x') (.entity k y')) :
    y.id = y'.id ↔ k.bare x.val = k.bare x'.val := by
  obtain ⟨τ, good, -⟩ := after_reaches hg (steps.take m)
  obtain ⟨υ, goodLater, -⟩ := after_reaches hg (steps.take (m + d))
  obtain ⟨τ', good', -, value, b, hb, hbn, entry⟩ := h.entry good hk
  obtain ⟨υ', -, -, value', c, hc, hcn, entry'⟩ := h'.entry goodLater hk
  rw [← after_succ s hst] at good' hb
  rw [← after_succ s hst', Nat.add_right_comm, List.take_add, after_append] at hc
  obtain ⟨ω, goodEnd, later⟩ := after_reaches good' ((steps.drop (m + 1)).take d)
  have grows := later.grows good' hb hc (hcn.trans hbn.symm)
  rw [goodEnd.entry_iff hk hc (grows.entry k y entry) entry', value, value']

/-- Entities that are interned into one provider become the same object if and only if they were structurally equal
then. -/
theorem interned_same_iff (hasher : Hasher) (options : Options) (steps : List Step) {m m' : Nat} {st st' : Step}
    (hst : steps[m]? = some st) (hst' : steps[m']? = some st') (hk : k.isModel = true)
    (h : Interned ((start hasher options).after (steps.take m)) st n (.entity k x) (.entity k y))
    (h' : Interned ((start hasher options).after (steps.take m')) st' n (.entity k x') (.entity k y')) :
    y.id = y'.id ↔ k.bare x.val = k.bare x'.val := by
  obtain ⟨σ, good, -⟩ := start_good hasher options []
  rcases Nat.le_total m m' with hle | hle
  · obtain ⟨d, rfl⟩ := Nat.exists_eq_add_of_le hle
    exact interned_iff good hk hst hst' h h'
  · obtain ⟨d, rfl⟩ := Nat.exists_eq_add_of_le hle
    rw [eq_comm, eq_comm (a := k.bare x.val)]
    exact interned_iff good hk hst' hst h' h

theorem interned_twice :
    let steps := [.bind "a" (.entity .typeRef (.named "N" "T" [])), .intern "P" "a",
      .bind "b" (.entity .typeRef (.named "N" "T" [])), .intern "P" "b"]
    let s := (start .colliding ⟨false, 0⟩).after steps
    ∃ y y' : Handle TypeRef,
      s.register? "a" = some (.entity .typeRef y) ∧ s.register? "b" = some (.entity .typeRef y') ∧
      y.id = y'.id := by
  intro steps s
  have interned : Interned ((start .colliding ⟨false, 0⟩).after (steps.take 1)) (.intern "P" "a") 0
      (.entity .typeRef ⟨4, .named ⟨95, "N"⟩ ⟨96, "T"⟩ ⟨false, 3, []⟩⟩)
      (.entity .typeRef ⟨4, .named ⟨95, "N"⟩ ⟨96, "T"⟩ ⟨false, 3, []⟩⟩) :=
    ⟨none, _, _, .intern rfl (by simp) ⟨rfl, ⟨_, _, _, rfl⟩, rfl⟩, .here _ _, .inl rfl⟩
  have again : Interned ((start .colliding ⟨false, 0⟩).after (steps.take 3)) (.intern "P" "b") 0
      (.entity .typeRef ⟨6, .named ⟨97, "N"⟩ ⟨98, "T"⟩ ⟨false, 5, []⟩⟩)
      (.entity .typeRef ⟨4, .named ⟨95, "N"⟩ ⟨96, "T"⟩ ⟨false, 3, []⟩⟩) :=
    ⟨none, _, _, .intern rfl (by simp) ⟨rfl, ⟨_, _, _, rfl⟩, rfl⟩, .here _ _, .inl rfl⟩
  exact ⟨_, _, rfl, rfl, (interned_same_iff .colliding ⟨false, 0⟩ steps rfl rfl rfl interned again).mpr rfl⟩

end Session

end CodeModel
