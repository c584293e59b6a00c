import CodeModel.Proofs.Interning.Log
import CodeModel.Proofs.Session.History

/-! What the steps of a session leave alone. -/

namespace CodeModel

def Step.provider? : Step → Option String
  | dropProvider p | newProvider p _ | intern p _ | internOptional p _ | internObject p _ _ | prepare p _
  | internString p _ _ | pool p _ _ => some p
  | _ => none

def Step.isCall : Step → Bool
  | intern .. | internOptional .. | internObject .. | internString .. => true
  | _ => false

def Step.pool? : Step → Option String
  | newPool p | pool p _ _ => some p
  | _ => none

def Step.targets : Step → List String
  | bind target _ | get _ _ target | copyUnfrozen _ target | internString _ _ target => [target]
  | drop registers => registers
  | set register _ | edit register _ | intern _ register | internOptional _ register | prepare _ register => [register]
  | internObject _ (.recipe _) target => [target]
  | internObject _ (.register name) target => [name, target]
  | pool _ _ target => target.toList
  | _ => []

namespace Session

open Builder

structure Framing (names : List String) (R : Session → Session → Prop) : Prop where
  built : ∀ {σ τ s t}, Built σ s τ t → R s t
  put : ∀ {s t r} i, r ∈ names → R s t → R s (t.put r i)
  without : ∀ {s t r}, r ∈ names → R s t → R s (t.without r)
  frozen : ∀ {s t} marks, R s t → R s { t with frozen := marks }
  emit : ∀ {s t e}, e.finding? = none → R s t → R s (t.emit e)

structure OuterFraming (names : List String) (R : Session → Session → Prop) : Prop extends Framing names R where
  outer : ∀ {s t u}, R s t → u.registers = t.registers → u.pools = t.pools → R s u

variable {names : List String} {R : Session → Session → Prop} {σ τ : Store} {s t : Session} {is : List Item}
  {free : List Nat} {p r : String}

def Framed {α : Type} (R : Session → Session → Prop) (act : Builder α) : Prop :=
  ∀ σ s, s.Good σ → act.Makes (· = s) (fun _ t => R s t)

namespace Framing

lemma refl (hR : Framing names R) (s : Session) : R s s := hR.built (.refl .initial s)

lemma hand (hR : Framing names R) (h : Hand σ s is free t) : R s t := by
  obtain ⟨τ, -, hb, -⟩ := h
  exact hR.built hb

lemma reads {α : Type} (hR : Framing names R) {act : Builder α} (h : Reads act) : Framed R act := fun _ s _ =>
  (h s).imp fun _ _ ht => ht ▸ hR.refl s

end Framing

lemma framed_of_hand {α : Type} {act : Builder α}
    (h : ∀ σ s, s.Good σ → act.Makes (Hand σ s [] []) (fun _ t => R s t)) : Framed R act := by
  intro σ s hg
  apply (h σ s hg).weaken
  rintro t rfl
  exact hand_start hg

section Changes

lemma changed_framed {α : Type} {P : Session → Prop} {o : Except ModelError (Handle α)} {item : Handle α → Item}
    {answer : Item → Answer} (hR : Framing names R) (hr : r ∈ names) (h : ∀ t, P t → R s t) :
    (changed r (o.map item) answer).Makes P (fun _ t => R s t) := by
  cases o with
  | error e => exact .pure h
  | ok x => exact .bind (.modify fun t ht => hR.put _ hr (h t ht)) fun _ => .pure fun t ht => ht

lemma change_framed (hR : Framing names R) (hr : r ∈ names) (c : ChangeRecipe) (answer : Item → Answer) :
    Framed R (change r c answer) := by
  apply framed_of_hand
  intro σ s hg
  refine (register_makes r).bind fun i => .given fun hi => ?_
  cases i with
  | nothing | text | list => exact .failure
  | entity k x =>
    refine (c.forKind_makes k).bind fun e => label_makes.bind fun storage => ?_
    refine .bind (Q := fun u => Hand σ s _ _) (.get fun t ht => ht) fun u => ?_
    cases u.isSoleHolder r x.id with
    | false => exact .pure fun t ht => hR.hand ht
    | true => exact changed_framed hR hr fun t ht => hR.hand ht
  | definition d =>
    refine (c.forDefinition_makes).bind fun e => label_makes.bind fun storage => ?_
    refine .bind (Q := fun u => Hand σ s _ _) (.get fun t ht => ht) fun u => ?_
    exact changed_framed hR hr fun t ht => hR.hand ht

lemma edit_framed (hR : Framing names R) (hr : r ∈ names) (c : ChangeRecipe) : Framed R (edit r c) := by
  intro σ s hg
  refine .bind (Q := fun _ t => t = s) (.get fun t ht => ht) fun u => ?_
  cases u.obstacle? r with
  | some refusal => exact .pure fun t ht => ht ▸ hR.refl s
  | none => exact change_framed hR hr c _ σ s hg

lemma get_framed {target : String} (hR : Framing names R) (ht : target ∈ names) (r : String) (path : List Segment) :
    Framed R (run (.get r path target)) := by
  apply framed_of_hand
  intro σ s hg
  refine (register_makes r).bind fun i => .given fun _ => ?_
  cases hj : i.follow? path with
  | none => exact .pure fun t h => hR.hand h
  | some j =>
    simp only
    refine .weaken ((j.share_makes (by simp)).bind fun j' => .given fun hd => ?_) fun t h =>
      h.within (by simp) (Item.within_follow? hj)
    exact .bind (.modify fun t h => hR.put _ ht (hR.hand h)) fun _ => .pure fun t h => h

lemma copyUnfrozen_framed {target : String} (hR : Framing names R) (ht : target ∈ names) (r : String) :
    Framed R (run (.copyUnfrozen r target)) := by
  apply framed_of_hand
  intro σ s hg
  refine (register_makes r).bind fun i => .given fun _ => ?_
  cases i with
  | entity k x =>
    refine (objectLabels_makes 2).bind fun storage => ?_
    refine .bind (Q := fun _ => R s) ?_ fun y =>
      .bind (.modify fun t h => hR.put _ ht h) fun _ => .pure fun t h => h
    exact label_makes.bind fun a => .pure fun t h => hR.hand h
  | _ => exact .failure

lemma freeze_framed (hR : Framing names R) (r : String) : Framed R (run (.freeze r)) := by
  rintro σ s -
  refine (Builder.register_reads r).bind fun i => .given fun _ => ?_
  have answer (id : Nat) : Builder.Makes (do return Answer.frozen ((← get).frozen.contains id))
      (R s) (fun _ => R s) :=
    .bind (.get fun t ht => ht) fun u => .pure fun t ht => ht
  refine .weaken (P := R s) ?_ fun t ht => ht ▸ hR.refl s
  cases i with
  | entity k x => exact .bind (.modify fun t ht => hR.frozen _ ht) fun _ => answer x.id
  | definition d =>
    have marked : Builder.Makes (do
        modify fun s : Session => { s with frozen := Definition.mark d s.frozen }
        return Answer.frozen ((← get).frozen.contains d.id)) (R s) (fun _ => R s) :=
      .bind (.modify fun t ht => hR.frozen _ ht) fun _ => answer d.id
    refine .bind (Q := fun _ => R s) (.get fun t ht => ht) fun u => ?_
    cases u.frozen.contains d.id with
    | true => exact marked
    | false => exact .bind (.modify fun t ht => hR.emit rfl ht) fun _ => marked
  | _ => exact .failure

end Changes

theorem run_framed {st : Step} (hR : Framing st.targets R) (hp : st.provider? = none) (hn : ∀ n, st ≠ .newPool n) :
    Framed R (run st) := by
  cases hst : st.asks with
  | true => exact hR.reads (run_reads st hst)
  | false =>
    cases st with
    | bind target value =>
      exact framed_of_hand fun σ s hg => value.build_makes.bind fun i => .given fun _ =>
        .bind (.modify fun t ht => hR.put _ (by simp [Step.targets]) (hR.hand ht)) fun _ => .pure fun t ht => ht
    | drop rs =>
      rintro σ s -
      refine .bind (Q := fun _ => R s) (.modify ?_) fun _ => .pure fun _ ht => ht
      rintro t rfl
      exact dropped_of_without (fun u r hr h => hR.without hr h) (hR.refl t)
    | newPool n => exact absurd rfl (hn n)
    | set r c => exact change_framed hR (by simp [Step.targets]) c _
    | edit r c => exact edit_framed hR (by simp [Step.targets]) c
    | get r path target => exact get_framed hR (by simp [Step.targets]) r path
    | copyUnfrozen r target => exact copyUnfrozen_framed hR (by simp [Step.targets]) r
    | freeze r => exact freeze_framed hR r
    | _ => simp [Step.provider?, Step.asks] at hp hst

section Calls

lemma take_framed {source : ItemSource} {target : String} (hR : Framing (Step.internObject p source target).targets R) :
    Framed R source.take := by
  cases source with
  | recipe recipe =>
    exact framed_of_hand fun σ s hg => recipe.build_makes.imp fun i t h => hR.hand h.1
  | register name =>
    rintro σ s -
    refine (Builder.register_reads name).bind fun i => .given fun _ => ?_
    refine .bind (Q := fun _ => R s) (.modify ?_) fun _ => .pure fun t ht => ht
    rintro t rfl
    exact hR.without (by simp [Step.targets]) (hR.refl t)

lemma Called.framed {act : Setting → Interning Item} {a : Answer} (hR : OuterFraming names R) (hr : r ∈ names)
    (h : Called s p r act a t) : R s t := by
  obtain ⟨q, m, l, -, -, rfl⟩ := h
  exact hR.put _ hr (hR.outer (hR.refl s) rfl rfl)

lemma Interns.framed {a : Answer} (hR : OuterFraming names R) (hr : r ∈ names) (h : Interns s p r a t) : R s t := by
  obtain ⟨i, -, ⟨-, rfl, -⟩ | ⟨-, h⟩⟩ := h
  · exact hR.refl t
  · exact h.framed hR hr

lemma prepare_framed (hR : OuterFraming names R) (hr : r ∈ names) (p : String) : Framed R (prepare p r) := by
  rintro σ s -
  refine (prepare_calls s p r).imp fun a t ⟨k, x, _, h⟩ => ?_
  rcases h with ⟨rfl, -⟩ | ⟨-, h⟩
  · exact hR.refl t
  · exact h.framed hR hr

lemma internObject_framed {source : ItemSource} {target : String}
    (hR : OuterFraming (Step.internObject p source target).targets R) : Framed R (internObject p source target) := by
  intro σ s hg
  refine (internObject_calls s p source target).imp fun a t ⟨k, x, u, hrun, h⟩ => ?_
  have taken : R s u := take_framed hR.toFraming σ s hg s rfl _ u hrun
  have named : target ∈ (Step.internObject p source target).targets := by cases source <;> simp [Step.targets]
  rcases h with ⟨-, rfl, -⟩ | ⟨q, j, w, -, -, h⟩
  · exact taken
  rcases h with ⟨e, -, -, rfl⟩ | ⟨-, -, rfl⟩
  · exact hR.outer taken rfl rfl
  · exact hR.put _ named (hR.outer taken rfl rfl)

lemma internString_framed {target : String} (hR : OuterFraming names R) (ht : target ∈ names) (p v : String) :
    Framed R (run (.internString p v target)) := by
  intro σ s hg
  refine (internString_calls s p v target).imp fun a t ⟨_, q, u, _, hrun, _, he⟩ => ?_
  have made : R s u := hR.hand (text_makes v s (hand_start hg) _ u hrun)
  exact he ▸ hR.put _ ht (hR.outer made rfl rfl)

lemma newProvider_framed (hR : OuterFraming names R) (target : String) (options : Options) :
    Framed R (run (.newProvider target options)) := by
  rintro σ s -
  refine .bind (Q := fun _ => R s) (.modify ?_) fun _ =>
    (Builder.reads_makes (reads_provider target)).bind fun q => .pure fun _ ht => ht
  rintro t rfl
  exact hR.outer (hR.refl t) rfl rfl

theorem run_outer_framed {st : Step} (hR : OuterFraming st.targets R) (h : st.pool? = none) : Framed R (run st) := by
  cases hp : st.provider? with
  | none => exact run_framed hR.toFraming hp fun n hn => by simp [hn, Step.pool?] at h
  | some p =>
    cases st with
    | dropProvider p =>
      rintro σ s -
      refine .bind (Q := fun _ => R s) (.modify ?_) fun _ => .pure fun _ ht => ht
      rintro t rfl
      exact hR.outer (hR.refl t) rfl rfl
    | newProvider target options => exact newProvider_framed hR target options
    | intern p r => exact fun _ s _ => (intern_calls s p r).imp fun _ _ h => h.framed hR (by simp [Step.targets])
    | internOptional p r =>
      exact fun _ s _ => (internOptional_calls s p r).imp fun _ _ h => h.framed hR (by simp [Step.targets])
    | prepare p r => exact prepare_framed hR (by simp [Step.targets]) p
    | internObject p source target => exact internObject_framed hR
    | internString p v target => exact internString_framed hR (by simp [Step.targets]) p v
    | pool p action target => simp [Step.pool?] at h
    | _ => simp [Step.provider?] at hp

end Calls

section Steps

variable {st : Step} {name : String}

lemma pools_framing (names : List String) : OuterFraming names fun s t => t.pools = s.pools where
  built hb := by rw [hb.same]
  put _ _ h := h
  without _ h := h
  frozen _ h := h
  emit _ h := h
  outer h _ hp := hp.trans h

lemma registers_framing (names : List String) :
    OuterFraming names fun s t => ∀ r ∉ names, t.register? r = s.register? r where
  built hb r _ := by
    rw [hb.same]
    rfl
  put i hr h r' hr' := by
    have ne : r' ≠ _ := fun he => hr' (he ▸ hr)
    exact (lookup_assign_other ne).trans (h r' hr')
  without hr h r' hr' := by
    have ne : r' ≠ _ := fun he => hr' (he ▸ hr)
    exact (lookup_unassign_other ne).trans (h r' hr')
  frozen _ h := h
  emit _ h := h
  outer h hr _ r hn := by
    rw [register?, hr]
    exact h r hn

lemma putPool_registers (t : Session) (name : String) (c : TextPool) :
    (t.putPool name c).registers = t.registers := by
  unfold putPool
  split
  · rfl
  · split <;> rfl

lemma putPool_other {n : String} (hn : name ≠ n) (t : Session) (c : TextPool) :
    (t.putPool n c).pools.lookup name = t.pools.lookup name := by
  unfold putPool
  split
  · exact lookup_assign_other hn
  · split <;> rfl

lemma keep_holds {P : Session → Prop} {target : Option String} (h : ∀ t r i, r ∈ target → P t → P (t.put r i))
    {o : Option Text} : (pool.keep target o).Makes P (fun _ => P) := by
  unfold pool.keep
  split
  · exact .bind (.modify fun t ht => h t _ _ rfl ht) fun _ => .pure fun t ht => ht
  · exact .pure fun t ht => ht

lemma run_registers (hg : s.Good σ) (st : Step) :
    (run st).Makes (· = s) (fun _ t => ∀ r ∉ st.targets, t.register? r = s.register? r) := by
  cases hst : st.pool? with
  | none => exact run_outer_framed (registers_framing st.targets) hst σ s hg
  | some name =>
    cases st with
    | newPool =>
      refine .bind (Q := fun _ t => t.registers = s.registers) (.modify fun t ht => ht ▸ rfl) fun _ => .pure ?_
      intro t ht r _
      rw [register?, ht, register?]
    | pool n action target =>
      have framing := (registers_framing (Step.pool n action target).targets)
      refine pool_makes (Q := fun _ t => ∀ r ∉ (Step.pool n action target).targets, t.register? r = s.register? r)
        (act_makes hg · action) (fun c o t _ ht => ?_) fun o => keep_holds fun t r i hr ht => ?_
      · obtain ⟨is, hand, -⟩ := ht
        intro r hr
        rw [register?, putPool_registers]
        exact framing.hand hand r hr
      · exact framing.put i (by simpa [Step.targets] using hr) ht
    | _ => simp [Step.pool?] at hst

lemma run_pools_other (hg : s.Good σ) (hn : st.pool? ≠ some name) :
    (run st).Makes (· = s) (fun _ t => t.pools.lookup name = s.pools.lookup name) := by
  cases hst : st.pool? with
  | none =>
    refine (run_outer_framed (pools_framing st.targets) hst σ s hg).imp fun _ t ht => ?_
    rw [ht]
  | some n =>
    have ne : name ≠ n := fun he => hn (he ▸ hst)
    cases st with
    | newPool n =>
      obtain rfl := Option.some.inj hst
      refine .bind (Q := fun _ t => t.pools.lookup name = s.pools.lookup name) (.modify ?_) fun _ => .pure fun _ ht => ht
      rintro t rfl
      exact lookup_assign_other ne
    | pool n action target =>
      obtain rfl := Option.some.inj hst
      refine pool_makes (Q := fun _ t => t.pools.lookup name = s.pools.lookup name) (act_makes hg · action)
        (fun c o t _ ht => ?_) fun o => keep_holds fun t r i _ ht => ht
      obtain ⟨is, hand, -⟩ := ht
      rw [putPool_other ne, (pools_framing []).hand hand]
    | _ => simp [Step.pool?] at hst

theorem step_register_other (hg : s.Good σ) (hr : r ∉ st.targets) :
    (step s st).2.2.register? r = s.register? r := by
  cases hrun : (run st).run { s with events := [] } with
  | none => simp only [step, hrun]
  | some o =>
    simp only [step, hrun]
    exact run_registers (hg.withEvents []) st _ rfl o.1 o.2 hrun r hr

theorem step_pools_other (hg : s.Good σ) (hn : st.pool? ≠ some name) :
    (step s st).2.2.pools.lookup name = s.pools.lookup name := by
  cases hrun : (run st).run { s with events := [] } with
  | none => simp only [step, hrun]
  | some o =>
    simp only [step, hrun]
    exact run_pools_other (hg.withEvents []) hn _ rfl o.1 o.2 hrun

end Steps

end Session

end CodeModel
