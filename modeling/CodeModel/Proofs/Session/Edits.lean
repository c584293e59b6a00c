import CodeModel.Proofs.Graph.Lists
import CodeModel.Proofs.Session.Frames
import CodeModel.Proofs.Session.Intake
import CodeModel.Proofs.Session.Meaning

/-! A step that changes an owner is refused, or it puts the owner back with at most one of its lists written. -/

namespace CodeModel

open Session Builder

/-- In session `s` change `c` makes item `j` of the owner `i`. It edits the list that `e?` says, if any, and what it
writes comes into storage `storage`. -/
inductive ChangeRecipe.Turns (c : ChangeRecipe) (s : Session) : Item → Option SlotEdit → Nat → Item → Prop
  | entity {k : Kind} {x : Handle k.Carrier} {a : k.Change} {u : Session} : (c.forKind k).run s = some (a, u) →
    Turns c s (.entity k x) (k.slotEdit? a) u.nextObject (.entity k ⟨x.id, k.change u.nextObject x.val a⟩)
  | definition {d : Handle Definition} {a : Definition.Change} {u : Session} : c.forDefinition.run s = some (a, u) →
    Turns c s (.definition d) a.slotEdit? u.nextObject (.definition ⟨d.id, d.val.change u.nextObject a⟩)

lemma ChangeRecipe.Turns.relists {c : ChangeRecipe} {s : Session} {i j : Item} {e? : Option SlotEdit} {storage : Nat}
    (h : c.Turns s i e? storage j) : Relists storage e? i.lists j.lists := by
  cases h with
  | entity => exact Kind.change_relists _ _ _ _
  | definition => exact Definition.change_relists _ _ _

lemma ChangeRecipe.Turns.unique {c : ChangeRecipe} {s : Session} {i j j' : Item} {e? e'? : Option SlotEdit}
    {storage storage' : Nat} (h : c.Turns s i e? storage j) (h' : c.Turns s i e'? storage' j') : j = j' := by
  cases h with
  | entity hrun =>
    cases h' with
    | entity hrun' =>
      obtain ⟨rfl, rfl⟩ := Prod.mk.inj (Option.some.inj (hrun.symm.trans hrun'))
      rfl
  | definition hrun =>
    cases h' with
    | definition hrun' =>
      obtain ⟨rfl, rfl⟩ := Prod.mk.inj (Option.some.inj (hrun.symm.trans hrun'))
      rfl

namespace Session

inductive Refused (s : Session) (r : String) (t : Session) : Answer → Prop
  | shared {k : Kind} {x : Handle k.Carrier} : s.register? r = some (.entity k x) →
    s.isSoleHolder r x.id = false → Refused s r t .shared
  | frozen {i : Item} {id : Nat} {e : ModelError} : s.register? r = some i → i.label? = some id → id ∈ t.frozen →
    Refused s r t (.failed e)

structure Changes (s : Session) (r : String) (c : ChangeRecipe) (answer : Item → Answer) (a : Answer) (t : Session) :
    Prop where
  providers : t.providers = s.providers
  pools : t.pools = s.pools
  registers : t.registers = s.registers ∧ Refused s r t a ∨
    ∃ i e? storage j, s.register? r = some i ∧ c.Turns s i e? storage j ∧ s.nextObject ≤ storage ∧
      a = answer j ∧ t.registers = assign r j s.registers

variable {σ : Store} {s t u : Session} {r : String} {c : ChangeRecipe} {a : Answer} {st : Step}

lemma Built.work {τ : Store} (h : Built σ s τ u) : u.providers = s.providers ∧ u.pools = s.pools := by
  rw [h.same]
  exact ⟨rfl, rfl⟩

section Preparing

variable {α : Type} {act : Builder α} {is : α → List Item} {next : α → Nat → Session → Running}

lemma prepared_run {e : α} (h : act.run s = some (e, u)) : StateT.run (do next (← act) (← label) (← get)) s =
    (next e u.nextObject { u with nextObject := u.nextObject + 1 }).run
      { u with nextObject := u.nextObject + 1 } := by
  simp [h, label, objectLabels]

lemma prepared {R : Answer → Session → Prop} (hg : s.Good σ)
    (h : act.Makes (Hand σ s [] []) (fun e => Hand σ s (is e) []))
    (h' : ∀ e u τ, act.run s = some (e, u) → Built σ s τ u → ∀ v, v = { u with nextObject := u.nextObject + 1 } →
      (next e u.nextObject v).Makes (· = v) R) :
    Builder.Makes (do next (← act) (← label) (← get)) (· = s) R := by
  rintro _ rfl a t hrun
  have first := hrun
  rw [StateT.run_bind] at first
  obtain ⟨⟨e, u⟩, he, -⟩ := Option.bind_eq_some_iff.mp first
  rw [prepared_run he] at hrun
  obtain ⟨τ, -, built, -⟩ := h _ (hand_start hg) e u he
  exact h' e u τ he built _ rfl _ rfl a t hrun

end Preparing

lemma frozen_of_checkMutable {frozen : Frozen} {id : Nat} {name : String} {e : ModelError}
    (h : (frozen.state id).checkMutable name = .error e) : id ∈ frozen := by
  by_contra hz
  simp [Frozen.state, hz, FreezeState.checkMutable, FreezeState.isFrozen] at h
  cases h

lemma guarded_error {α : Type} {frozen : Frozen} {name : String} {x : Handle α} {v : α} {e : ModelError}
    (h : guarded frozen name x v = .error e) : x.id ∈ frozen := by
  rw [guarded_eq] at h
  split at h
  next hz => exact hz
  next => cases h

lemma changed_changes {α : Type} {i : Item} {storage : Nat} {item : Handle α → Item}
    {o : Except ModelError (Handle α)} {answer : Item → Answer} (e? : Option SlotEdit) (hu : u.providers = s.providers)
    (hp : u.pools = s.pools) (hreg : u.registers = s.registers) (hi : s.register? r = some i)
    (hle : s.nextObject ≤ storage) (he : ∀ e, o = .error e → ∃ id, i.label? = some id ∧ id ∈ u.frozen)
    (h : ∀ x, o = .ok x → c.Turns s i e? storage (item x)) :
    (changed r (o.map item) answer).Makes (· = u) (Changes s r c answer) := by
  cases o with
  | error e =>
    obtain ⟨id, hid, hz⟩ := he e rfl
    refine .pure ?_
    rintro _ rfl
    exact ⟨hu, hp, .inl ⟨hreg, .frozen hi hid hz⟩⟩
  | ok x =>
    refine .bind (Q := fun _ t => t = u.put r (item x)) (.modify fun t ht => by rw [ht]) fun _ => .pure ?_
    rintro _ rfl
    exact ⟨hu, hp, .inr ⟨i, e?, storage, item x, hi, h x rfl, hle, rfl, by rw [put, hreg]⟩⟩

lemma isSoleHolder_congr (hr : t.registers = s.registers) (hp : t.providers = s.providers) (r : String) (id : Nat) :
    t.isSoleHolder r id = s.isSoleHolder r id := by
  unfold isSoleHolder heldBeside
  rw [hr, hp]

theorem change_changes (hg : s.Good σ) (r : String) (c : ChangeRecipe) (answer : Item → Answer) :
    (change r c answer).Makes (· = s) (Changes s r c answer) := by
  refine (Builder.register_reads r).bind fun i => .given fun hi => ?_
  cases i with
  | nothing | text | list => exact .failure
  | entity k x =>
    refine prepared hg (c.forKind_makes k) fun e u τ hrun built v hv => ?_
    have same : v.providers = s.providers ∧ v.pools = s.pools := hv ▸ built.work
    have registers : v.registers = s.registers := hv ▸ built.registers
    cases hs : v.isSoleHolder r x.id with
    | false =>
      refine .pure ?_
      rintro _ rfl
      rw [isSoleHolder_congr registers same.1] at hs
      exact ⟨same.1, same.2, .inl ⟨registers, .shared hi hs⟩⟩
    | true =>
      refine changed_changes (k.slotEdit? e) same.1 same.2 registers hi built.nextObject
        (fun e he => ⟨x.id, rfl, guarded_error he⟩) fun y hy => ?_
      obtain ⟨-, rfl⟩ := guarded_ok hy
      exact .entity hrun
  | definition d =>
    refine prepared hg c.forDefinition_makes fun e u τ hrun built v hv => ?_
    have same : v.providers = s.providers ∧ v.pools = s.pools := hv ▸ built.work
    refine changed_changes e.slotEdit? same.1 same.2 (hv ▸ built.registers) hi built.nextObject
      (fun e he => ⟨d.id, rfl, guarded_error he⟩) fun y hy => ?_
    obtain ⟨-, rfl⟩ := guarded_ok hy
    exact .definition hrun

lemma changed_ends (u : Session) (r : String) (o : Except ModelError Item) (answer : Item → Answer) :
    ∃ a t, (changed r o answer).run u = some (a, t) := by
  cases o <;> simp [changed, assignItem]

lemma change_ends {i j : Item} {e? : Option SlotEdit} {storage : Nat} (hi : s.register? r = some i)
    (h : c.Turns s i e? storage j) (answer : Item → Answer) : ∃ a t, (change r c answer).run s = some (a, t) := by
  unfold change
  rw [StateT.run_bind, register_run hi]
  cases h with
  | @entity k x e u hrun =>
    dsimp only [Option.bind_eq_bind, Option.bind_some]
    rw [prepared_run hrun]
    split
    · exact changed_ends ..
    · simp
  | definition hrun =>
    dsimp only [Option.bind_eq_bind, Option.bind_some]
    rw [prepared_run hrun]
    exact changed_ends ..

lemma edit_ends {i j : Item} {e? : Option SlotEdit} {storage : Nat} (hi : s.register? r = some i)
    (h : c.Turns s i e? storage j) : ∃ a t, (edit r c).run s = some (a, t) := by
  cases ho : s.obstacle? r with
  | none => simpa [edit, ho] using change_ends hi h _
  | some refusal => simp [edit, ho]

lemma refused_of_obstacle (h : s.obstacle? r = some a) : Refused s r s a := by
  unfold obstacle? at h
  split at h
  next k x hi =>
    split at h
    next =>
      split at h
      next => cases h
      next e he =>
        obtain rfl := Option.some.inj h
        exact .frozen hi rfl (frozen_of_checkMutable he)
    next hs =>
      obtain rfl := Option.some.inj h
      exact .shared hi (by simpa using hs)
  next => cases h

theorem edit_changes (hg : s.Good σ) (r : String) (c : ChangeRecipe) :
    (edit r c).Makes (· = s) (Changes s r c (editedLength c)) := by
  refine .bind (Q := fun v t => t = s ∧ v = s) (.get fun t ht => ⟨ht, ht⟩) fun v => .given fun hv => ?_
  rw [hv]
  cases ho : s.obstacle? r with
  | none => exact change_changes hg r c _
  | some refusal =>
    refine .pure ?_
    rintro _ rfl
    exact ⟨rfl, rfl, .inl ⟨rfl, refused_of_obstacle ho⟩⟩

inductive Edits (r : String) (c : ChangeRecipe) : Step → (Item → Answer) → Prop
  | set : Edits r c (.set r c) fun _ => .ok
  | edit : Edits r c (.edit r c) (editedLength c)

theorem step_changes {answer : Item → Answer} (hg : s.Good σ) (h : Edits r c st answer) :
    Changes { s with events := [] } r c answer (step s st).1 (step s st).2.2 ∨
      (step s st).1 = .invalid ∧ (step s st).2.2 = s := by
  cases h with
  | set => exact step_makes s _ (change_changes (hg.withEvents []) r c _)
  | edit => exact step_makes s _ (edit_changes (hg.withEvents []) r c)

theorem step_turns {answer : Item → Answer} {i j : Item} {e? : Option SlotEdit} {storage : Nat} (hg : s.Good σ)
    (h : Edits r c st answer) (hi : s.register? r = some i) (hj : c.Turns { s with events := [] } i e? storage j) :
    Refused { s with events := [] } r (step s st).2.2 (step s st).1 ∨
      (step s st).1 = answer j ∧ (step s st).2.2.register? r = some j := by
  have turned {a : Answer} {t : Session} (h : Changes { s with events := [] } r c answer a t) :
      Refused { s with events := [] } r t a ∨ a = answer j ∧ t.register? r = some j := by
    rcases h.registers with ⟨-, refused⟩ | ⟨i', _, _, j', hi', hj', -, ha, hr⟩
    · exact .inl refused
    · obtain rfl : i = i' := Option.some.inj (hi.symm.trans hi')
      obtain rfl := hj.unique hj'
      exact .inr ⟨ha, by rw [register?, hr, lookup_assign_self]⟩
  have good := hg.withEvents []
  cases h with
  | set =>
    obtain ⟨a, t, hrun⟩ := change_ends (s := { s with events := [] }) hi hj fun _ => .ok
    have ends : (run (.set r c)).run { s with events := [] } = some (a, t) := hrun
    obtain ⟨rfl, rfl⟩ := step_of_run ends
    exact turned (change_changes good r c _ _ rfl _ _ hrun)
  | edit =>
    obtain ⟨a, t, hrun⟩ := edit_ends (s := { s with events := [] }) hi hj
    have ends : (run (.edit r c)).run { s with events := [] } = some (a, t) := hrun
    obtain ⟨rfl, rfl⟩ := step_of_run ends
    exact turned (edit_changes good r c _ rfl _ _ hrun)

end Session

end CodeModel
