import CodeModel.Proofs.Session.Calls
import CodeModel.Proofs.Tables.Census

namespace CodeModel

namespace Answer

def failure? : Answer → Option ModelError
  | interned e _ _ _ => e
  | notMade e _ => some e
  | _ => none

def Succeeds : Answer → Prop
  | interned none _ _ _ | internedNothing _ | made _ _ | texts _ => True
  | _ => False

variable {a : Answer} {e : Option ModelError} {z : Stats}

lemma failure?_of_verdict (h : a.verdict? = some (e, z)) : a.failure? = e := by
  cases a <;> simp_all [verdict?, failure?]

lemma succeeds_of_verdict (h : a.verdict? = some (none, z)) : a.Succeeds := by
  cases a <;> simp_all [verdict?, Succeeds]

end Answer

def Step.peeks : Step → Bool
  | pool _ action _ => action.asks
  | _ => false

namespace Session

open Builder

variable {σ τ : Store} {s t u : Session} {p r : String} {q : Provider} {st : Step} {i j : Item} {w : Work} {a : Answer}

inductive Offers (s : Session) (p : String) : Step → Item → Prop
  | intern {r : String} {i : Item} : s.register? r = some i → Offers s p (.intern p r) i
  | internOptional {r : String} {i : Item} : s.register? r = some i → Offers s p (.internOptional p r) i
  | internObject {source : ItemSource} {target : String} {i : Item} {u : Session} :
    source.take.run { s with events := [] } = some (i, u) → Offers s p (.internObject p source target) i
  | internString (v target : String) : Offers s p (.internString p v target) (.text ⟨s.nextText, v⟩)

lemma Offers.provider? (h : Offers s p st i) : st.provider? = some p := by
  cases h <;> rfl

lemma Offers.unique (h : Offers s p st i) (h' : Offers s p st j) : i = j := by
  cases h with
  | intern hi =>
    cases h' with
    | intern hj => exact Option.some.inj (hi.symm.trans hj)
  | internOptional hi =>
    cases h' with
    | internOptional hj => exact Option.some.inj (hi.symm.trans hj)
  | internObject hi =>
    cases h' with
    | internObject hj => exact congrArg Prod.fst (Option.some.inj (hi.symm.trans hj))
  | internString =>
    cases h' with
    | internString => rfl

def Supplies (s : Session) (p : String) (st : Step) (i : Item) : Prop := Offers s p st i ∧ (step s st).1.Succeeds

def brought (s : Session) (p : String) (st : Step) : Set Item := {v | ∃ i, Supplies s p st i ∧ v ∈ i.values}

def supplied (p : String) : Session → List Step → Set Item
  | _, [] => ∅
  | s, st :: more => s.brought p st ∪ supplied p (step s st).2.2 more

/-- If step `st` works on provider `p`, then it looks into its pool, or it interns model kinds and does not fail. -/
def Feasible (s : Session) (p : String) (st : Step) : Prop :=
  st.provider? = some p → (st.isCall = true ∨ st.peeks = true) ∧ (step s st).1.failure? = none ∧
    ∀ i, Supplies s p st i → i.IsModel

def Fills (p : String) : Session → List Step → Prop
  | _, [] => True
  | s, st :: more => s.Feasible p st ∧ Fills p (step s st).2.2 more

lemma brought_eq (h : Offers s p st i) (ha : (step s st).1.Succeeds) : s.brought p st = i.values := by
  ext v
  constructor
  · rintro ⟨j, ⟨hj, -⟩, hv⟩
    rwa [h.unique hj]
  · intro hv
    exact ⟨i, ⟨h, ha⟩, hv⟩

lemma brought_none (h : ∀ i, ¬ Supplies s p st i) : s.brought p st = ∅ := by
  ext v
  constructor
  · rintro ⟨i, hi, -⟩
    exact h i hi
  · exact False.elim

section Steps

def Stocked (s : Session) (p : String) (q : Provider) (V : Set Item) (t : Session) : Prop :=
  ∃ q', t.providers.lookup p = some q' ∧ q'.stock s.hasher = q.stock s.hasher ∪ V

lemma stocked_same (h : t.providers.lookup p = some q) (hb : ∀ i, ¬ Supplies s p st i) :
    Stocked s p q (s.brought p st) t :=
  ⟨q, h, by rw [brought_none hb, Set.union_empty]⟩

lemma Intake.stock (h : Intake s q i j w) (hq : q.Sound s.hasher) (hm : i.IsModel) (hf : w.failure = none) :
    w.provider.stock s.hasher = q.stock s.hasher ∪ i.values := by
  have stock := (h.tallies hm).stock hf fun i hi => hq.values_subset hi.canonical
  simpa [Work.inventory] using stock

lemma Receives.stocked (h : Receives u p q i r (step s st).1 t j w) (hu : u.hasher = s.hasher)
    (hq : q.Sound s.hasher) (ho : Offers s p st i) (hf : s.Feasible p st) : Stocked s p q (s.brought p st) t := by
  obtain ⟨-, calm, model⟩ := hf ho.provider?
  have failure : w.failure = none := (Answer.failure?_of_verdict h.verdict).symm.trans calm
  have success : (step s st).1.Succeeds := Answer.succeeds_of_verdict (failure ▸ h.verdict)
  rw [brought_eq ho success]
  refine ⟨w.provider, h.provider, ?_⟩
  rw [← hu]
  exact h.intake.stock (hu ▸ hq) (model i ⟨ho, success⟩) failure

lemma Interns.stocked (hg : u.Good σ) (hu : u.hasher = s.hasher) (hq : u.providers.lookup p = some q)
    (h : Interns u p r (step s st).1 t) (ho : ∀ i, u.register? r = some i → Offers s p st i) (hf : s.Feasible p st) :
    Stocked s p q (s.brought p st) t := by
  obtain ⟨i, hi, -⟩ := id h
  obtain ⟨j, w, call⟩ := h.receives hg hq hi
  exact call.stocked hu (hu ▸ hg.sound _ (mem_of_lookup hq)) (ho i hi) hf

lemma Consumes.stocked {source : ItemSource} {target : String} (hg : u.Good σ) (hu : u = { s with events := [] })
    (hq : u.providers.lookup p = some q) (h : Consumes u p source target (step s (.internObject p source target)).1 t)
    (hf : s.Feasible p (.internObject p source target)) :
    Stocked s p q (s.brought p (.internObject p source target)) t := by
  by_cases ha : (step s (.internObject p source target)).1 = .shared
  · obtain ⟨k, x, v, hrun, ⟨-, rfl, -⟩ | ⟨q', j, w, -, -, ⟨e, -, he, -⟩ | ⟨-, ⟨d, hd⟩, -⟩⟩⟩ := h
    · obtain ⟨τ, taken⟩ := take_makes hg source u rfl _ t hrun
      refine stocked_same (taken.providers ▸ hq) fun i hi => ?_
      simpa [ha, Answer.Succeeds] using hi.2
    · simp [he] at ha
    · simp [hd] at ha
  · obtain ⟨k, x, v, hrun, -⟩ := id h
    obtain ⟨j, w, call⟩ := h.receives hg hq hrun ha
    have aside : Aside u v := take_aside hg source u rfl _ v hrun
    have hasher : v.hasher = s.hasher := aside.hasher.trans (by rw [hu])
    have sound : q.Sound s.hasher := by
      have := hg.sound _ (mem_of_lookup hq)
      rwa [hu] at this
    exact call.stocked hasher sound (.internObject (hu ▸ hrun)) hf

lemma Pools.stocked {v target : String} (hg : u.Good σ) (hu : u = { s with events := [] })
    (hq : u.providers.lookup p = some q) (h : Pools u p v target (step s (.internString p v target)).1 t) :
    Stocked s p q (s.brought p (.internString p v target)) t := by
  obtain ⟨⟨n, hn⟩, q', x, hq', hrun, hp, rfl⟩ := h
  obtain rfl : q = q' := Option.some.inj (hq.symm.trans hq')
  obtain ⟨τ, taken⟩ := (text_makes v u (hand_start hg) _ x hrun).taken hg
  have hasher : x.hasher = s.hasher := taken.later.hasher.trans (by rw [hu])
  have sound : q.Sound x.hasher := by
    have := hg.sound _ (mem_of_lookup hq)
    rwa [← taken.later.hasher] at this
  have intake := taken.intake (hp ▸ hq) (by simp)
  have failure : ((poolText x.setting ⟨u.nextText, v⟩).run (x.work q)).2.failure = none := by
    rw [poolText_run _ rfl]
    rfl
  have label : u.nextText = s.nextText := by rw [hu]
  have success : (step s (.internString p v target)).1.Succeeds := hn ▸ trivial
  rw [brought_eq (.internString v target) success, ← label]
  refine ⟨_, lookup_assign_self, ?_⟩
  rw [← hasher]
  exact intake.stock sound trivial failure

theorem run_stocked (hg : u.Good σ) (hu : u = { s with events := [] }) (hq : u.providers.lookup p = some q)
    (hp : st.provider? = some p) (hf : s.Feasible p st) (hrun : (run st).run u = some ((step s st).1, t)) :
    Stocked s p q (s.brought p st) t := by
  obtain ⟨calls, -⟩ := hf hp
  have hasher : u.hasher = s.hasher := by rw [hu]
  have registers (r : String) : u.register? r = s.register? r := by rw [hu]; rfl
  cases st with
  | intern _ r =>
    obtain rfl := Option.some.inj hp
    exact (intern_calls u _ r u rfl _ _ hrun).stocked hg hasher hq (fun i hi => .intern (registers r ▸ hi)) hf
  | internOptional _ r =>
    obtain rfl := Option.some.inj hp
    exact (internOptional_calls u _ r u rfl _ _ hrun).stocked hg hasher hq
      (fun i hi => .internOptional (registers r ▸ hi)) hf
  | internObject _ source target =>
    obtain rfl := Option.some.inj hp
    exact (internObject_calls u _ source target u rfl _ _ hrun).stocked hg hu hq hf
  | internString _ v target =>
    obtain rfl := Option.some.inj hp
    exact (internString_calls u _ v target u rfl _ _ hrun).stocked hg hu hq
  | pool _ action target =>
    obtain rfl := Option.some.inj hp
    have asks : action.asks = true := by simpa [Step.isCall, Step.peeks] using calls
    refine stocked_same ((pool_asks hg _ asks target u rfl _ _ hrun).trans hq) fun i hi => ?_
    cases hi.1
  | _ => simp [Step.isCall, Step.peeks] at calls

theorem step_stocked (hg : s.Good σ) (hq : s.providers.lookup p = some q) (hf : s.Feasible p st) :
    Stocked s p q (s.brought p st) (step s st).2.2 := by
  by_cases hp : st.provider? = some p
  swap
  · exact stocked_same ((step_lookup_other hg hp).trans hq) fun i hi => hp hi.1.provider?
  cases hrun : (run st).run { s with events := [] } with
  | none =>
    have invalid : step s st = (.invalid, [], s) := by simp [step, hrun]
    rw [invalid]
    refine stocked_same hq fun i hi => ?_
    simpa [invalid, Answer.Succeeds] using hi.2
  | some o =>
    obtain ⟨a, t⟩ := o
    obtain ⟨rfl, rfl⟩ := step_of_run hrun
    exact run_stocked (hg.withEvents []) rfl hq hp hf hrun

theorem after_stocked {steps : List Step} (hg : s.Good σ) (hq : s.providers.lookup p = some q) (hf : Fills p s steps) :
    Stocked s p q (supplied p s steps) (s.after steps) := by
  induction steps generalizing s σ q with
  | nil => exact ⟨q, hq, (Set.union_empty _).symm⟩
  | cons st steps ih =>
    obtain ⟨c, hc, stock⟩ := step_stocked hg hq hf.1
    obtain ⟨τ, good, later⟩ := step_reaches hg st
    obtain ⟨q', hq', stock'⟩ := ih good hc hf.2
    rw [later.hasher, stock, Set.union_assoc] at stock'
    exact ⟨q', hq', stock'⟩

lemma isModel_of_supplied {steps : List Step} {v : Item} (hf : Fills p s steps) (hv : v ∈ supplied p s steps) :
    v.IsModel := by
  induction steps generalizing s with
  | nil => exact hv.elim
  | cons st steps ih =>
    rcases hv with ⟨i, hi, a, ha, -, rfl⟩ | hv
    · obtain ⟨-, -, model⟩ := hf.1 hi.1.provider?
      exact (Item.isModel_bare a).mpr ((model i hi).within ha)
    · exact ih hf.2 hv

end Steps

structure Filling (hasher : Hasher) (options : Options) (steps more : List Step) (p : String) (o : Options) :
    Prop where
  new : ∃ n label, ((start hasher options).after steps).providers.lookup p = some (Provider.create hasher n label o)
  fills : Fills p ((start hasher options).after steps) more

variable {hasher : Hasher} {options o : Options} {steps more : List Step}

theorem Filling.contents (h : Filling hasher options steps more p o) :
    ∃ q, ((start hasher options).after (steps ++ more)).providers.lookup p = some q ∧
      q.Contents hasher o (supplied p ((start hasher options).after steps) more) := by
  obtain ⟨n, label, hq⟩ := h.new
  obtain ⟨σ, good, hash⟩ := start_good hasher options steps
  obtain ⟨q, found, stock⟩ := after_stocked good hq h.fills
  obtain ⟨τ, good', later⟩ := after_reaches good more
  have sound := good'.sound _ (mem_of_lookup found)
  rw [later.hasher, hash] at sound
  rw [hash] at stock
  rw [after_append]
  exact ⟨q, found, sound.contents stock fun v hv => isModel_of_supplied h.fills hv⟩

/-- A provider has one entity for each shared type and each entity value that was interned, and nothing else. -/
theorem contents_exact (h : Filling hasher options steps more p o) :
    ∃ q, ((start hasher options).after (steps ++ more)).providers.lookup p = some q ∧
      q.Contents hasher o (supplied p ((start hasher options).after steps) more) ∧
      ∀ hasher' options' steps' more' p', Filling hasher' options' steps' more' p' o →
        supplied p' ((start hasher' options').after steps') more' =
          supplied p ((start hasher options).after steps) more →
        ∃ q', ((start hasher' options').after (steps' ++ more')).providers.lookup p' = some q' ∧
          q'.stats.entities = q.stats.entities ∧ q'.stats.lists = q.stats.lists ∧ q'.stats.strings = q.stats.strings := by
  obtain ⟨q, hq, contents⟩ := h.contents
  refine ⟨q, hq, contents, fun hasher' options' steps' more' p' h' same => ?_⟩
  obtain ⟨q', hq', contents'⟩ := h'.contents
  rw [same] at contents'
  exact ⟨q', hq', contents'.counts_eq contents⟩

theorem contents_exact_array :
    let s := start .colliding ⟨false, 0⟩
    let more : List Step := [.bind "a" (.entity .typeRef (.array (.shared .unknown) 1)), .intern "P" "a",
      .freeze "a", .bind "b" (.entity .typeRef (.array (.shared .unknown) 1)), .intern "P" "b",
      .internString "P" "x" "t"]
    {v ∈ supplied "P" s more | v.IsEntity ∧ ¬ v.IsShared}.encard = 1 := by
  intro s more
  have fills : Filling .colliding ⟨false, 0⟩ [] more "P" ⟨false, 0⟩ := by
    refine ⟨⟨0, 1, start_lookup _ _⟩, ?_⟩
    have skips {s : Session} {st : Step} (h : st.provider? = none) : s.Feasible "P" st := fun hp => by simp [h] at hp
    refine ⟨skips rfl, fun _ => ⟨.inl rfl, rfl, fun i hi => ?_⟩, skips rfl, skips rfl,
      fun _ => ⟨.inl rfl, rfl, fun i hi => ?_⟩, fun _ => ⟨.inl rfl, rfl, fun i hi => ?_⟩, trivial⟩
    · obtain ⟨⟨hi⟩, -⟩ := hi
      cases hi
      rfl
    · obtain ⟨⟨hi⟩, -⟩ := hi
      cases hi
      rfl
    · obtain ⟨⟨⟩, -⟩ := hi
      trivial
  obtain ⟨q, hq, contents, -⟩ := contents_exact fills
  have stats : ((s.after more).providers.lookup "P").map (fun q => q.stats.entities) = some 4 := by decide +kernel
  have found : (s.after more).providers.lookup "P" = some q := hq
  rw [found, Option.map_some, Option.some.injEq] at stats
  have count : (3 : ℕ∞) + 1 = 3 + _ := (congrArg Nat.cast stats).symm.trans contents.entities
  exact (ENat.add_right_injective_of_ne_top (ENat.natCast_ne_top 3) count).symm

end Session

end CodeModel
