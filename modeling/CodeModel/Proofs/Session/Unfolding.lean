import CodeModel.Proofs.Session.Calls
import CodeModel.Proofs.Session.Meaning

namespace CodeModel.Session

variable {σ : Store} {s : Session} {p r : String} {q : Provider} {st : Step} {i j b c : Item} {w : Work}

inductive Feeds (s : Session) (p : String) : Step → String → Item → Prop
  | intern {r : String} {i : Item} : s.register? r = some i → Feeds s p (.intern p r) r i
  | internOptional {r : String} {i : Item} : s.register? r = some i → i = .nothing ∨ (∃ k x, i = .entity k x) →
    Feeds s p (.internOptional p r) r i
  | internObject {r target : String} {k : Kind} {x : Handle k.Carrier} :
    s.register? r = some (.entity k x) → s.isSoleHolder r x.id = true →
    Feeds s p (.internObject p (.register r) target) target (.entity k x)

lemma Feeds.calls (h : Feeds s p st r i) :
    st.isCall = true ∧ ∃ u, Calls s p st r i u ∧ u.hasher = s.hasher ∧ u.frozen = s.frozen := by
  cases h with
  | intern hi => exact ⟨rfl, _, .intern hi, rfl, rfl⟩
  | internOptional hi hk => exact ⟨rfl, _, .internOptional hi hk, rfl, rfl⟩
  | @internObject source _ k x hi hs =>
    have taken := take_run (s := { s with events := [] }) hi
    have alone : s.heldBeside (some source) none x.id = false := by simpa [isSoleHolder] using hs
    exact ⟨rfl, _, .internObject taken alone, rfl, rfl⟩

theorem Feeds.receives (hg : s.Good σ) (hq : s.providers.lookup p = some q) (h : Feeds s p st r i) :
    ∃ u j w, u.hasher = s.hasher ∧ u.frozen = s.frozen ∧
      Receives u p q i r (step s st).1 (step s st).2.2 j w := by
  obtain ⟨calls, u, h, hasher, frozen⟩ := h.calls
  obtain ⟨_, _, w, j, settles⟩ := h.settles hg hq
  exact ⟨u, j, w, hasher, frozen, settles.receives hq calls⟩

lemma Intake.matches (h : Intake s q i j w) (hf : w.failure = none) (hm : i.IsModel) (hb : Item.Within b j)
    (hc : q.Canonical s.hasher c) (value : c.bare = b.bare) : Item.Matches b c := by
  have model : j.IsModel := by rwa [← Item.isModel_bare, h.means hm, Item.isModel_bare]
  -- only a definition is not canonical itself, and no canonical item has the value of one
  have canonical : w.provider.Canonical s.hasher b := by
    rcases Item.within_iff.mp hb with rfl | ⟨l, hl, hb⟩
    · refine (h.canonical hf).1 fun d hd => ?_
      have definition : c.bare = .definition (d.bare Definition.bare) := by rw [value, h.means hm, hd]; rfl
      cases c with
      | definition => exact hc
      | _ => cases definition
    · exact h.sound.canonical_within ((h.canonical hf).2 l hl) hb
  exact h.sound.matches_of_bare (model.within hb) canonical (.mono h.grows hc) value.symm

/-- Of two items that unfold to one tree, either is interned with the same failure and the same counts. -/
theorem sharing_immaterial (hasher : Hasher) (options : Options) (steps : List Step) {st' : Step} {r' : String}
    {i' : Item} (hq : ((start hasher options).after steps).providers.lookup p = some q)
    (h : Feeds ((start hasher options).after steps) p st r i)
    (h' : Feeds ((start hasher options).after steps) p st' r' i') (hm : i.IsModel)
    (hu : i.Unfolds q.Settled (·.FrozenIn ((start hasher options).after steps).frozen) i') :
    let s := (start hasher options).after steps
    let t := (step s st).2.2
    let t' := (step s st').2.2
    ∃ e z, (step s st).1.verdict? = some (e, z) ∧ (step s st').1.verdict? = some (e, z) ∧
      (t.providers.lookup p).map Provider.stats = some z ∧ (t'.providers.lookup p).map Provider.stats = some z ∧
      (e = none → ∃ j j', t.register? r = some j ∧ t'.register? r' = some j' ∧ j.bare = i.bare ∧ j'.bare = i.bare ∧
        ∀ b b', Item.Along j j' b b' → (∃ c, q.Canonical hasher c ∧ c.bare = b.bare) → b.SameObject b') := by
  intro s t t'
  obtain ⟨σ, good, hash⟩ := start_good hasher options steps
  obtain ⟨u, j, w, uhash, ufrozen, call⟩ := h.receives good hq
  obtain ⟨u', j', w', uhash', ufrozen', call'⟩ := h'.receives good hq
  have hm' : i'.IsModel := by rwa [← Item.isModel_bare, hu.value, Item.isModel_bare]
  have tallies := call.intake.tallies hm
  have tallies' := call'.intake.tallies hm'
  rw [uhash, ufrozen] at tallies
  rw [uhash', ufrozen'] at tallies'
  have same := tallies.unique tallies' (.cons hu .nil)
  have failure : w.failure = w'.failure := congrArg Inventory.failure same
  have stats : w.provider.stats = w'.provider.stats := congrArg Inventory.stats same
  refine ⟨w.failure, w.provider.stats, call.verdict, ?_, ?_, ?_, fun hf => ?_⟩
  · rw [call'.verdict, failure, stats]
  · rw [call.provider, Option.map_some]
  · rw [call'.provider, Option.map_some, stats]
  have value := call.intake.means hm
  have value' := (call'.intake.means hm').trans hu.value
  refine ⟨j, j', call.result hf, call'.result (failure ▸ hf), value, value', fun b b' hb ⟨c, hc, hcb⟩ => ?_⟩
  have hcb' : c.bare = b'.bare := hcb.trans (hb.bare_eq (value'.trans value.symm)).symm
  have left := call.intake.matches hf hm hb.within_left (by rwa [uhash, hash]) hcb
  have right := call'.intake.matches (failure ▸ hf) hm' hb.within_right (by rwa [uhash', hash]) hcb'
  exact (left.trans right.symm).sameObject

theorem sharing_immaterial_element :
    let s := (start .colliding ⟨false, 0⟩).after [.bind "e" (.entity .typeRef (.named "N" "T" [])),
      .bind "a" (.entity .typeRef (.array (.register "e") 1)),
      .bind "b" (.entity .typeRef (.array (.named "N" "T" []) 1))]
    ∃ z, (step s (.intern "P" "a")).1.verdict? = some (none, z) ∧
      (step s (.internObject "P" (.register "b") "c")).1.verdict? = some (none, z) := by
  intro s
  let q := Provider.create .colliding 0 1 ⟨false, 0⟩
  let element (id storage ns name : Nat) : Handle TypeRef := ⟨id, .named ⟨ns, "N"⟩ ⟨name, "T"⟩ ⟨false, storage, []⟩⟩
  have lookup : s.providers.lookup "P" = some q := by
    obtain ⟨σ, good, -⟩ := start_good .colliding ⟨false, 0⟩ []
    exact (after_lookup_other good (by simp [Step.provider?])).trans (start_lookup _ _)
  have entity {x y : Handle TypeRef} (hx : 3 ≤ x.id) (hy : 3 ≤ y.id) (value : y.val.bare = x.val.bare)
      (parts : List.Forall₂ (Item.Unfolds q.Settled (·.FrozenIn s.frozen)) x.val.parts y.val.parts) :
      Item.Unfolds q.Settled (·.FrozenIn s.frozen) (.entity .typeRef x) (.entity .typeRef y) := by
    have unsettled {z : Handle TypeRef} (hz : 3 ≤ z.id) : ¬ q.Settled (.entity .typeRef z) := fun h =>
      absurd hz (Provider.id_of_hasEntry_create h).not_ge
    have unfrozen {z : Handle TypeRef} (hz : 3 ≤ z.id) : ¬ (Item.entity .typeRef z).FrozenIn s.frozen := by
      have frozen : s.frozen = [0, 1, 2] := rfl
      rw [frozenIn_entity, frozen]
      simp
      omega
    exact .of_parts (by simp [Handle.bare, Kind.bare, value]) (iff_of_false (unsettled hx) (unsettled hy))
      (iff_of_false (unfrozen hx) (unfrozen hy)) parts
  have text (a b : Nat) (v : String) : Item.Unfolds q.Settled (·.FrozenIn s.frozen) (.text ⟨a, v⟩) (.text ⟨b, v⟩) :=
    .of_parts rfl .rfl (iff_of_false (not_frozenIn_text _ _) (not_frozenIn_text _ _)) .nil
  have args (a b : Nat) : Item.Unfolds q.Settled (·.FrozenIn s.frozen) (.list .typeRef ⟨false, a, []⟩)
      (.list .typeRef ⟨false, b, []⟩) :=
    .of_parts rfl (iff_of_true (.inl rfl) (.inl rfl)) (iff_of_false (not_frozenIn_list _ _) (not_frozenIn_list _ _)) .nil
  have unfolds : Item.Unfolds q.Settled (·.FrozenIn s.frozen) (.entity .typeRef ⟨5, .array (element 4 3 95 96) 1⟩)
      (.entity .typeRef ⟨8, .array (element 7 6 97 98) 1⟩) := by
    refine entity (by simp) (by simp) rfl (.cons (entity (by simp [element]) (by simp [element]) rfl ?_) .nil)
    exact .cons (text 95 97 "N") (.cons (text 96 98 "T") (.cons (args 3 6) .nil))
  have shared : Feeds s "P" (.intern "P" "a") "a" (.entity .typeRef ⟨5, .array (element 4 3 95 96) 1⟩) := .intern rfl
  have sole : Feeds s "P" (.internObject "P" (.register "b") "c") "c"
      (.entity .typeRef ⟨8, .array (element 7 6 97 98) 1⟩) := .internObject rfl (by decide)
  have succeeds : ∃ z, (step s (.intern "P" "a")).1.verdict? = some (none, z) := ⟨_, rfl⟩
  obtain ⟨e, z, verdict, verdict', -⟩ :=
    sharing_immaterial .colliding ⟨false, 0⟩ _ lookup shared sole (by simp [Kind.isModel]) unfolds
  obtain ⟨n, hn⟩ := succeeds
  obtain ⟨rfl, -⟩ := Prod.mk.inj (Option.some.inj (verdict.symm.trans hn))
  exact ⟨z, verdict, verdict'⟩

end CodeModel.Session
