import CodeModel.Proofs.Interning.Nesting
import CodeModel.Proofs.Session.Calls
import CodeModel.Proofs.Session.Publication

namespace CodeModel.Session

variable {σ : Store} {s u : Session} {p r : String} {q : Provider} {st : Step} {i : Item} {id : Nat}

lemma mem_visit (id : Nat) (below : Marks → Marks) (m : Marks) : id ∈ Marks.visit id below m := by
  by_cases h : id ∈ m <;> simp [Marks.visit, h]

lemma mark_of_label (hid : i.label? = some id) (m : Marks) : i.mark m = Marks.visit id (markAll i.parts) m := by
  cases i with
  | entity k x =>
    obtain rfl := Option.some.inj hid
    exact Item.mark_entity k x m
  | definition d =>
    obtain rfl := Option.some.inj hid
    exact Item.mark_definition d m
  | _ => cases hid

lemma freeze_answers (hi : s.register? r = some i) (hid : i.label? = some id) :
    (step s (.freeze r)).1 = .frozen true := by
  have found := register_run_cleared hi
  cases i with
  | entity k x => simp [step, run, freeze, found, Kind.mark, mem_visit]
  | definition d =>
    by_cases hz : d.id ∈ s.frozen <;> simp [step, run, freeze, found, hz, Definition.mark, mem_visit]
  | _ => cases hid

lemma display_answers (hi : s.register? r = some i) (hid : i.label? = some id) (hm : i.IsModel) :
    ∃ text, i.display? = some text ∧ (step s (.display r)).1 = .display text := by
  have found := register_run_cleared hi
  obtain ⟨text, htext⟩ : ∃ text, i.display? = some text := by
    cases i with
    | entity k x =>
      cases k with
      | probe _ => cases hm
      | _ => exact ⟨_, rfl⟩
    | definition d => exact ⟨_, rfl⟩
    | _ => cases hid
  exact ⟨text, htext, by simp [step, run, found, Builder.ofOption, htext]⟩

/-- No object is ever linked to itself, so whatever goes from items to their parts ends. -/
theorem graph_stays_acyclic (hasher : Hasher) (options : Options) (steps : List Step) :
    let s := (start hasher options).after steps
    (∀ a, ¬ Relation.TransGen (Linked s.Holds) a a) ∧
    (∃ size : Nat → Nat, (∀ i a, s.Holds i → i.label? = some a → size a = i.size) ∧
      ∀ a b, Linked s.Holds a b → size b < size a) ∧
    (∀ i : Item, (∀ p ∈ i.parts, p.size < i.size) ∧
      ∀ id, i.label? = some id → ∀ m, i.mark m = Marks.visit id (markAll i.parts) m) ∧
    (∀ (k : Kind) (v w : k.Carrier), k.outline v = k.outline w →
      (k.parts v).map Item.shown = (k.parts w).map Item.shown → k.display? v = k.display? w) ∧
    (∀ r i id, s.register? r = some i → i.label? = some id → (step s (.freeze r)).1 = .frozen true ∧
      (i.IsModel → ∃ text, i.display? = some text ∧ (step s (.display r)).1 = .display text)) ∧
    ∀ p q st r i u, s.providers.lookup p = some q → Calls s p st r i u →
      (∃ act v, Performs u p st i act ∧ v = (act.run (u.work q)).2 ∧
        (step s st).1.verdict? = some (v.failure, v.provider.stats)) ∧
      ∀ held c, Relation.ReflTransGen (Call.Nested u.setting) ⟨i, held, u.work q⟩ c → c.GoesDown u.setting := by
  intro s
  obtain ⟨σ, good, -⟩ : ∃ σ, s.Good σ ∧ s.hasher = hasher := start_good hasher options steps
  have fits (i : Item) (hi : s.Holds i) : σ.Fits i := good.fits_of_holds hi
  have sized (i : Item) (a : Nat) (hi : s.Holds i) (ha : i.label? = some a) : σ.size a = i.size :=
    Store.size_eq (fits i hi) ha
  refine ⟨fun a => Store.not_linked_self fits, ⟨σ.size, sized, fun a b => Store.size_linked fits⟩,
    fun i => ⟨fun p => Item.size_part, fun id => mark_of_label⟩, fun k v w => k.display_congr,
    fun r i id hi hid => ⟨freeze_answers hi hid, display_answers hi hid⟩, fun p q st r i u hq h => ?_⟩
  obtain ⟨σ', τ, v, j, settles⟩ := h.settles good hq
  obtain ⟨act, performs, ran⟩ := settles.performs
  have found : u.providers.lookup p = some q := settles.aside.providers ▸ hq
  refine ⟨⟨act, v, performs, congrArg Prod.snd ran, settles.leaves.verdict⟩, fun held c hc => ?_⟩
  have sound : Call.Sound u.setting ⟨i, held, u.work q⟩ := ⟨σ', settles.good.work found, settles.fits⟩
  exact (sound.reaches hc).goesDown

theorem graph_stays_acyclic_array :
    let s := (start .colliding ⟨false, 0⟩).after [.bind "e" (.entity .typeRef (.named "N" "E" [])), .intern "P" "e",
      .bind "a" (.entity .typeRef (.array (.register "e") 1)), .intern "P" "a"]
    ∃ x e : Handle TypeRef, s.register? "a" = some (.entity .typeRef x) ∧ x.val = .array e 1 ∧
      Linked s.Holds x.id e.id ∧ ¬ Relation.ReflTransGen (Linked s.Holds) e.id x.id := by
  intro s
  have found : ∃ x e : Handle TypeRef, s.register? "a" = some (.entity .typeRef x) ∧ x.val = .array e 1 :=
    ⟨_, _, rfl, rfl⟩
  obtain ⟨x, e, hx, he⟩ := found
  have linked : Linked s.Holds x.id e.id :=
    ⟨_, .entity .typeRef e, holds_of_register? hx, rfl, rfl, .inl (by simp [Kind.parts, he, TypeRef.parts])⟩
  obtain ⟨acyclic, -⟩ := graph_stays_acyclic .colliding ⟨false, 0⟩ _
  exact ⟨x, e, hx, he, linked, fun back => acyclic x.id (.head' linked back)⟩

end CodeModel.Session
