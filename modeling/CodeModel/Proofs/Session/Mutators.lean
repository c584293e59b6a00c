import CodeModel.Proofs.Graph.Fields
import CodeModel.Proofs.Session.Bystanders
import CodeModel.Proofs.Session.Drawing
import CodeModel.Proofs.Session.Edits

namespace CodeModel

open Session Builder

/-- Built in session `s`, change `c` of the owner `i` writes `w.2` to field `w.1`. A list takes its storage from the
next label. -/
inductive ChangeRecipe.Writes (c : ChangeRecipe) (s : Session) : Item → Field × Content → Prop
  | entity {k : Kind} {x : Handle k.Carrier} {a : k.Change} {u : Session} : (c.forKind k).run s = some (a, u) →
    Writes c s (.entity k x) (k.written u.nextObject x.val a)
  | definition {d : Handle Definition} {a : Definition.Change} {u : Session} : c.forDefinition.run s = some (a, u) →
    Writes c s (.definition d) (a.written u.nextObject d.val)

lemma Handle.eq_of {α : Type} {x y : Handle α} (hid : x.id = y.id) (hval : x.val = y.val) : x = y := by
  cases x
  cases y
  simp_all

namespace Item.SameObject

lemma entity {k : Kind} {x : Handle k.Carrier} {v : Item} (h : (Item.entity k x).SameObject v) :
    ∃ y, v = .entity k y ∧ y.id = x.id := by
  cases v with
  | entity l y =>
    obtain ⟨rfl, hid⟩ : k = l ∧ x.id = y.id := by simpa [SameObject, same?] using h
    exact ⟨y, rfl, hid.symm⟩
  | _ => simp [SameObject, same?] at h

lemma definition {d : Handle Definition} {v : Item} (h : (Item.definition d).SameObject v) :
    ∃ e, v = .definition e ∧ e.id = d.id := by
  cases v with
  | definition e => exact ⟨e, rfl, h.symm⟩
  | _ => simp [SameObject, same?] at h

end Item.SameObject

namespace Session

variable {σ : Store} {s t u : Session} {r : String} {c : ChangeRecipe} {st : Step} {i j : Item} {id : Nat}
  {answer : Item → Answer} {w : Field × Content}

/-- An owner that can be changed: nothing but its register holds it. A definition never has another holder. -/
structure Owned (s : Session) (r : String) (i : Item) (id : Nat) : Prop where
  register : s.register? r = some i
  label : i.label? = some id
  sole : ∀ k x, i = .entity k x → s.isSoleHolder r id = true

section Building

lemma entity_run {k : Kind} {x : Handle k.Carrier} (hx : s.register? r = some (.entity k x)) :
    (Builder.entity k r).run s = some (x, s) := by
  simp [Builder.entity, register_run hx]

lemma register_of_entity_run {k : Kind} {x : Handle k.Carrier} (h : (Builder.entity k r).run s = some (x, u)) :
    s.register? r = some (.entity k x) ∧ s = u := by
  cases hr : s.register? r with
  | none =>
    have failed : (Builder.register r).run s = none := congrArg (fun o => (Builder.ofOption o).run s) hr
    rw [Builder.entity, StateT.run_bind, failed] at h
    cases h
  | some i =>
    rw [Builder.entity, StateT.run_bind, register_run hr] at h
    cases i with
    | entity j y =>
      by_cases hk : j = k
      · subst hk
        obtain ⟨rfl, rfl⟩ : y = x ∧ s = u := by simpa using h
        exact ⟨rfl, rfl⟩
      · simp [hk] at h
    | _ => simp at h

lemma changed_guarded {α : Type} (x : Handle α) (v : α) (name : String) (item : Handle α → Item) :
    (changed r ((guarded u.frozen name x v).map item) answer).run u = some (if x.id ∈ u.frozen then
      (.failed (.frozenMutation name), u) else (answer (item ⟨x.id, v⟩), u.put r (item ⟨x.id, v⟩))) := by
  rw [guarded_eq]
  split <;> rfl

structure ChangeBuilt (σ : Store) (s : Session) (r : String) (c : ChangeRecipe) (i : Item) (id : Nat)
    (w : Field × Content) (j : Item) (u : Session) : Prop where
  drawn : s.Drawn u
  same : i.SameObject j
  sets : Sets i.field j.field w
  determined : ∀ v, i.SameObject v → v.field = j.field → v = j
  changes : ∀ answer, (change r c answer).run s =
    some (if id ∈ s.frozen then (.failed (.frozenMutation i.kindName), u) else (answer j, u.put r j))
  reaches : id ∉ s.frozen → ReachesAt σ id s (u.put r j)

theorem changeBuilt_of_writes (hg : s.Good σ) (hi : Owned s r i id) (hw : c.Writes s i w) :
    ∃ j u, ChangeBuilt σ s r c i id w j u := by
  have hand : Hand σ s [i] [] s := (register_makes r s (hand_start hg) i s (register_run hi.register)).1
  cases hw with
  | @entity k x a u hrun =>
    obtain rfl : x.id = id := by simpa [Item.label?] using hi.label
    have drawn := drawn_label ((c.forKind_draws k).run hrun)
    have frozen : u.frozen = s.frozen := drawn.frozen
    have sole := (drawn.isSoleHolder r x.id).trans (hi.sole k x rfl)
    have built := label_makes _ (c.forKind_makes k s hand a u hrun) _ _ rfl
    refine ⟨.entity k ⟨x.id, k.change u.nextObject x.val a⟩, _, drawn, Item.sameObject_entity rfl,
      k.change_sets x.val a, fun v hv hf => ?_, fun answer => ?_,
      fun hz => built.replace_entity hg hi.register sole (frozen ▸ hz)⟩
    · obtain ⟨y, rfl, hid⟩ := hv.entity
      exact congrArg (Item.entity k) (Handle.eq_of hid (Kind.eq_of_fields a hf))
    · unfold change
      rw [StateT.run_bind, register_run hi.register]
      dsimp only [Option.bind_eq_bind, Option.bind_some]
      rw [prepared_run hrun, if_pos sole, Kind.mutate, changed_guarded]
      simp only [frozen, Item.kindName]
  | @definition d a u hrun =>
    obtain rfl : d.id = id := by simpa [Item.label?] using hi.label
    have drawn := drawn_label (c.forDefinition_draws.run hrun)
    have frozen : u.frozen = s.frozen := drawn.frozen
    have built := label_makes _ (c.forDefinition_makes s hand a u hrun) _ _ rfl
    refine ⟨.definition ⟨d.id, d.val.change u.nextObject a⟩, _, drawn, rfl, d.val.change_sets a, fun v hv hf => ?_,
      fun answer => ?_, fun hz => built.replace_definition hg hi.register (frozen ▸ hz)⟩
    · obtain ⟨e, rfl, hid⟩ := hv.definition
      exact congrArg Item.definition (Handle.eq_of hid (Definition.eq_of_fields hf))
    · unfold change
      rw [StateT.run_bind, register_run hi.register]
      dsimp only [Option.bind_eq_bind, Option.bind_some]
      rw [prepared_run hrun, Definition.mutate, changed_guarded]
      simp only [frozen, Item.kindName]

lemma Owned.obstacle? {k : Kind} {x : Handle k.Carrier} (hi : Owned s r (.entity k x) id) :
    s.obstacle? r = if id ∈ s.frozen then some (.failed (.frozenMutation k.name)) else none := by
  obtain rfl : x.id = id := by simpa [Item.label?] using hi.label
  by_cases hz : x.id ∈ s.frozen <;>
    simp [Session.obstacle?, hi.register, hi.sole k x rfl, Frozen.state, hz, FreezeState.checkMutable,
      FreezeState.isFrozen, pure, Except.pure, throw, throwThe, MonadExceptOf.throw]

lemma Owned.obstacle?_definition {d : Handle Definition} (hi : Owned s r (.definition d) id) :
    s.obstacle? r = none := by
  simp [Session.obstacle?, hi.register]

lemma ChangeBuilt.refused (hp : ChangeBuilt σ s r c i id w j u) (hi : Owned s r i id) (h : Edits r c st answer)
    (hz : id ∈ s.frozen) :
    ∃ v, s.Drawn v ∧ (run st).run s = some (.failed (.frozenMutation i.kindName), v) := by
  have changed (answer : Item → Answer) := (hp.changes answer).trans (congrArg some (if_pos hz))
  cases h with
  | set => exact ⟨u, hp.drawn, changed _⟩
  | edit =>
    cases i with
    | entity k x => exact ⟨s, .refl s, by simp [run, edit, hi.obstacle?, hz, Item.kindName]⟩
    | definition d => exact ⟨u, hp.drawn, by simpa [run, edit, hi.obstacle?_definition] using changed _⟩
    | _ => exact absurd hi.label (by simp [Item.label?])

lemma ChangeBuilt.made (hp : ChangeBuilt σ s r c i id w j u) (hi : Owned s r i id) (h : Edits r c st answer)
    (hz : id ∉ s.frozen) : (run st).run s = some (answer j, u.put r j) := by
  have changed (answer : Item → Answer) := (hp.changes answer).trans (congrArg some (if_neg hz))
  cases h with
  | set => exact changed _
  | edit =>
    have free : s.obstacle? r = none := by
      cases i with
      | entity k x => exact hi.obstacle?.trans (if_neg hz)
      | definition d => exact hi.obstacle?_definition
      | _ => exact absurd hi.label (by simp [Item.label?])
    simpa [run, edit, free] using changed _

end Building

section Surroundings

variable {a b : Item}

lemma holds_beside (hg : s.Good σ) (hi : s.register? r = some i) (ha : s.Holds a) :
    (s.without r).Holds a ∨ Item.Within a i := by
  cases ha with
  | @register b _ hb ha =>
    by_cases hr : b.1 = r
    · have found : s.registers.lookup r = some b.2 := lookup_of_mem hg.boundOnce (hr ▸ hb)
      obtain rfl : b.2 = i := Option.some.inj (found.symm.trans hi)
      exact .inr ha
    · exact .inl (.register (mem_unassign.mpr ⟨hb, hr⟩) ha)
  | provider hb hr ha => exact .inl (.provider hb hr ha)
  | pool hb ht => exact .inl (.pool hb ht)
  | shared t => exact .inl (.shared t)

lemma Owned.not_keeps (hg : s.Good σ) (hi : Owned s r i id) : ¬ (s.without r).Keeps none id := by
  cases i with
  | entity k x => exact not_keeps_of_sole hg (hi.sole k x rfl)
  | definition d =>
    obtain rfl : d.id = id := by simpa [Item.label?] using hi.label
    exact not_keeps_definition hg hi.register
  | _ => exact absurd hi.label (by simp [Item.label?])

lemma Owned.not_labels (hg : s.Good σ) (hi : Owned s r i id) (ha : s.Holds a) (hne : a.label? ≠ some id) :
    ¬ a.Labels id := by
  intro hl
  rcases holds_beside hg hi.register ha with ha | ha
  · exact hi.not_keeps hg ((hg.without r).keeps_of_holds ha hl)
  · obtain rfl | ⟨p, hp, ha⟩ := Item.within_iff.mp ha
    · exact hne hi.label
    · obtain ⟨l, hl, hid⟩ := hl
      exact (hg.fits_register hi.register).acyclic hi.label p hp ⟨l, hl.trans ha, hid⟩

theorem ReachesAt.unwritten (hg : s.Good σ) (hi : Owned s r i id) (h : ReachesAt σ id s t) (ha : s.Holds a)
    (hb : t.Holds b) (hs : a.SameObject b) (hne : a.label? ≠ some id) : Item.Matches a b := by
  obtain ⟨τ, good, later, kept⟩ := h
  have fits := hg.fits_of_holds ha
  have fits' : τ.Fits a := by
    refine fits.mono later.extends' fun n hn => kept n ?_ ?_
    · obtain ⟨l, -, -, hl⟩ := fits.object_of_labels hn
      exact hg.object n l hl
    · rintro rfl
      exact hi.not_labels hg ha hne hn
  exact Store.matches_of_sameObject fits' (good.fits_of_holds hb) hs

lemma Drawn.holds_put (h : s.Drawn u) (hg : s.Good σ) (ha : (s.without r).Holds a) : (u.put r j).Holds a := by
  rw [h]
  refine ha.mono rfl (fun b hb => ?_) (fun _ hb => hb) fun _ hb => hb
  exact (mem_assign hg.boundOnce).mpr (.inr (mem_unassign.mp hb))

end Surroundings

lemma Edits.answer_ne (h : Edits r c st answer) (e : ModelError) : answer j ≠ .failed e := by
  cases h with
  | set => simp
  | edit =>
    unfold editedLength
    split <;> simp

/-- A change fails just if its owner is frozen, and does nothing then; else it writes the addressed field alone. -/
theorem changes_guarded_atomic_local (hasher : Hasher) (options : Options) (steps : List Step)
    (hi : Owned ((start hasher options).after steps) r i id) (h : Edits r c st answer)
    (hw : c.Writes { (start hasher options).after steps with events := [] } i w) :
    let s := (start hasher options).after steps
    let t := (step s st).2.2
    ((∃ e, (step s st).1 = .failed e) ↔ id ∈ s.frozen) ∧
      (id ∈ s.frozen → (step s st).1 = .failed (.frozenMutation i.kindName) ∧ Drawn { s with events := [] } t) ∧
      (id ∉ s.frozen → ∃ j, (step s st).1 = answer j ∧
        Drawn { s with registers := assign r j s.registers, events := [] } t ∧
        i.SameObject j ∧ Sets i.field j.field w ∧ (∀ v, i.SameObject v → v.field = j.field → v = j) ∧
        (∀ a, (s.without r).Holds a → t.Holds a) ∧
        ∀ a b, s.Holds a → t.Holds b → a.SameObject b → a.label? ≠ some id → Item.Matches a b) := by
  intro s t
  obtain ⟨σ, good, -⟩ := start_good hasher options steps
  have good' : ({ s with events := [] } : Session).Good σ := good.withEvents []
  have cleared {v : Session} {a : Item} (ha : v.Holds a) : ({ v with events := [] } : Session).Holds a :=
    ha.mono rfl (fun _ hb => hb) (fun _ hb => hb) fun _ hb => hb
  have owned : Owned { s with events := [] } r i id := { hi with }
  obtain ⟨j, u, built⟩ := changeBuilt_of_writes good' owned hw
  have refused (hz : id ∈ s.frozen) :
      (step s st).1 = .failed (.frozenMutation i.kindName) ∧ Drawn { s with events := [] } t := by
    obtain ⟨v, drawn, hrun⟩ := built.refused owned h hz
    obtain ⟨answered, ended⟩ : (step s st).1 = _ ∧ t = v := step_of_run hrun
    exact ⟨answered, ended ▸ drawn⟩
  have made (hz : id ∉ s.frozen) : (step s st).1 = answer j ∧ t = u.put r j :=
    step_of_run (built.made owned h hz)
  refine ⟨⟨fun ⟨e, he⟩ => ?_, fun hz => ⟨_, (refused hz).1⟩⟩, refused, fun hz => ?_⟩
  · by_contra hz
    exact h.answer_ne e ((made hz).1.symm.trans he)
  · obtain ⟨answered, ended⟩ := made hz
    refine ⟨j, answered, ?_, built.same, built.sets, built.determined, fun a ha => ?_,
      fun a b ha hb hs hne => ?_⟩
    · rw [ended]
      exact Drawn.put built.drawn r j
    · rw [ended]
      exact Drawn.holds_put built.drawn good' (cleared ha)
    · exact (built.reaches hz).unwritten good' owned (cleared ha) (ended ▸ hb) hs hne

theorem changes_guarded_atomic_local_parameter :
    let region : RegionRecipe := ⟨none, ⟨0, 0⟩, ⟨0, 0⟩⟩
    let mark : AttributeRecipe := .make (.shared .dynamic) [] [] region
    let steps := [.bind "p" (.entity .parameter (.make none (.shared .dynamic) [mark] none region [])), .intern "P" "p",
      .copyUnfrozen "p" "c", .get "p" [.attr 0] "a"]
    let s := (start .colliding ⟨false, 0⟩).after steps
    let t := (step s (.edit "c" (.attributes [.push (.register "a")]))).2.2
    ∃ (x y : Handle Parameter) (a : Handle Attribute), s.register? "c" = some (.entity .parameter x) ∧
      s.register? "a" = some (.entity .attr a) ∧ t.register? "c" = some (.entity .parameter y) ∧
      y.val.attributes.items = x.val.attributes.items ++ [a] ∧ t.providers = s.providers ∧
      x.val.attributes.sealed = true ∧ ∀ b, t.Holds b → (Item.list .attr x.val.attributes).SameObject b →
        Item.Matches (.list .attr x.val.attributes) b := by
  intro region mark steps
  have law {i : Item} {n : Nat} {w : Field × Content}
      (h : Owned ((start .colliding ⟨false, 0⟩).after steps) "c" i n) :=
    changes_guarded_atomic_local (c := .attributes [.push (.register "a")]) (w := w) .colliding ⟨false, 0⟩ steps h .edit
  have copied : ((Builder.entity .parameter "c").run ((start .colliding ⟨false, 0⟩).after steps)).any (fun x =>
      x.1.val.attributes.sealed && !x.2.frozen.contains x.1.id && x.2.isSoleHolder "c" x.1.id) = true := by
    decide +kernel
  have taken : ((Builder.entity .attr "a").run ((start .colliding ⟨false, 0⟩).after steps)).isSome = true := by
    decide +kernel
  generalize (start .colliding ⟨false, 0⟩).after steps = s at law copied taken ⊢
  obtain ⟨⟨x, u⟩, runs, shared⟩ := (Option.any_eq_true ..).mp copied
  obtain ⟨hx, rfl⟩ := register_of_entity_run runs
  obtain ⟨⟨isSealed, unmarked⟩, sole⟩ : (x.val.attributes.sealed = true ∧ x.id ∉ s.frozen) ∧
    s.isSoleHolder "c" x.id = true := by simpa using shared
  obtain ⟨⟨a, v⟩, runs⟩ := Option.isSome_iff_exists.mp taken
  obtain ⟨ha, -⟩ := register_of_entity_run runs
  have built : (ChangeRecipe.forKind (.attributes [.push (.register "a")]) .parameter).run { s with events := [] } =
      some (.attributes [.push a], { s with events := [] }) := by
    have run := entity_run (s := { s with events := [] }) ha
    simp [ChangeRecipe.forKind, ChangeRecipe.forParameter, ListEdit.build, AttributeRecipe.build, run]
  obtain ⟨-, -, made⟩ := law ⟨hx, rfl, fun _ _ _ => sole⟩ (.entity built)
  obtain ⟨j, -, drawn, same, sets, -, -, unwritten⟩ := made unmarked
  obtain ⟨y, rfl, -⟩ := same.entity
  have attributes : y.val.attributes = ⟨false, s.nextObject, x.val.attributes.items ++ [a]⟩ := by
    simpa [Item.field, Kind.field, Parameter.field, Kind.written, Parameter.Change.written, Content.edited,
      ListEdit.apply] using sets.1
  have held : s.Holds (.list .attr x.val.attributes) :=
    .register (mem_of_lookup hx) (Item.within_parts (by simp [Kind.parts, Parameter.parts]))
  refine ⟨x, y, a, hx, ha, ?_, congrArg EntityList.items attributes, drawn.providers, isSealed,
    fun b hb hs => unwritten _ b held hb hs (by simp [Item.label?])⟩
  rw [register?, drawn.registers]
  exact lookup_assign_self

end Session

end CodeModel
