import CodeModel.Proofs.Session.History

namespace CodeModel

variable {σ τ : Store} {i j : Item}

namespace Item

/-- Two items are the same object, text or list in memory. -/
def SameObject : Item → Item → Prop
  | definition d, definition e => d.id = e.id
  | i, j => i.same? j = some true

lemma SameObject.cases (h : i.SameObject j) :
    i = nothing ∧ j = nothing ∨ (∃ t u, i = text t ∧ j = text u ∧ t.id = u.id) ∨
      (∃ k x y, i = entity k x ∧ j = entity k y ∧ x.id = y.id) ∨
      (∃ k l m, i = list k l ∧ j = list k m ∧ l.sameStorage m = true) ∨
      ∃ d e, i = definition d ∧ j = definition e ∧ d.id = e.id := by
  cases i with
  | nothing => cases j <;> simp_all [SameObject, same?]
  | text t => cases j <;> simp_all [SameObject, same?]
  | entity k x =>
    cases j with
    | entity l y =>
      obtain ⟨rfl, hid⟩ : k = l ∧ x.id = y.id := by simpa [SameObject, same?] using h
      exact .inr (.inr (.inl ⟨k, x, y, rfl, rfl, hid⟩))
    | _ => simp [SameObject, same?] at h
  | list k l =>
    cases j with
    | list k' m =>
      by_cases hk : k' = k
      · subst hk
        exact .inr (.inr (.inr (.inl ⟨k', l, m, rfl, rfl, by simpa [SameObject, same?] using h⟩)))
      · simp [SameObject, same?, hk] at h
    | _ => simp [SameObject, same?] at h
  | definition d => cases j <;> simp_all [SameObject, same?]

lemma Matches.trans {l : Item} (h : Matches i j) (h' : Matches j l) : Matches i l := by
  cases h with
  | refl => exact h'
  | empty hi hj =>
    cases h' with
    | refl => exact .empty hi hj
    | empty _ hl => exact .empty hi hl

lemma Matches.sameObject (h : Matches i j) : i.SameObject j := by
  cases h with
  | refl =>
    cases i with
    | list k l => simp [SameObject, same?, l.sameStorage_refl]
    | _ => simp [SameObject, same?]
  | empty hi hj => simp [SameObject, same?, EntityList.sameStorage_iff, EntityList.identity, hi, hj]

/-- Two items look the same, in all their depth, to whoever does not ask for identities or freezing. -/
structure SameValue (i j : Item) : Prop where
  bare : j.bare = i.bare
  display : j.display? = i.display?
  follow : ∀ path, (j.follow? path).map Item.bare = (i.follow? path).map Item.bare

lemma sameValue_of_bare (h : j.bare = i.bare) : i.SameValue j where
  bare := h
  display := by rw [← display_bare, h, display_bare]
  follow path := by rw [← follow_bare, h, follow_bare]

end Item

namespace Store.Preserves

lemma bare_entity {k : Kind} {x y : Handle k.Carrier} (h : σ.Preserves τ) (hx : σ.Fits (.entity k x))
    (hy : τ.Fits (.entity k y)) (hk : k.isModel = true) (hid : x.id = y.id) : y.bare k.bare = x.bare k.bare := by
  obtain ⟨j, hj, hxj⟩ := h.object x.id _ hx.knows
  have same : Item.entity k y = j := Option.some.inj (hy.knows.symm.trans (hid ▸ hj))
  have value := hxj hk
  rw [← same] at value
  simpa using value

lemma bare_items {k : Kind} (h : σ.Preserves τ) (hk : k.isModel = true) {xs ys : List (Handle k.Carrier)}
    (hx : ∀ x ∈ xs, σ.Fits (.entity k x)) (hy : ∀ y ∈ ys, τ.Fits (.entity k y))
    (hid : xs.map Handle.id = ys.map Handle.id) : ys.map (Handle.bare k.bare) = xs.map (Handle.bare k.bare) := by
  induction xs generalizing ys with
  | nil =>
    obtain rfl : ys = [] := by simpa using hid.symm
    rfl
  | cons x xs ih =>
    cases ys with
    | nil => simp at hid
    | cons y ys =>
      simp only [List.map_cons, List.cons.injEq, List.mem_cons, forall_eq_or_imp] at hid hx hy ⊢
      exact ⟨h.bare_entity hx.1 hy.1 hk hid.1, ih hx.2 hy.2 hid.2⟩

theorem bare_eq (h : σ.Preserves τ) (hi : σ.Fits i) (hj : τ.Fits j) (hm : i.IsModel) (hs : i.SameObject j) :
    j.bare = i.bare := by
  obtain ⟨rfl, rfl⟩ | ⟨t, u, rfl, rfl, hid⟩ | ⟨k, x, y, rfl, rfl, hid⟩ | ⟨k, l, m, rfl, rfl, storage⟩ |
    ⟨d, e, rfl, rfl, hid⟩ := hs.cases
  · rfl
  · have spelling := h.extends'.text _ _ (Store.fits_text.mp hi)
    rw [hid, Store.fits_text.mp hj] at spelling
    simpa [Text.bare] using spelling
  · simp [h.bare_entity hi hj hm hid]
  · have ids : l.items.map Handle.id = m.items.map Handle.id := by
      rcases EntityList.sameStorage_cases storage with ⟨hl, hm⟩ | ⟨hl, hm, hs⟩
      · rw [hl, hm]
      · have known := h.extends'.list _ _ (hi.knows hl)
        rw [hs, hj.knows hm] at known
        simp only [Option.some.injEq, Prod.mk.injEq] at known
        exact known.2.2.symm
    simp [EntityList.bare, h.bare_items hm (fun x => hi.element) (fun y => hj.element) ids]
  · obtain ⟨j, hj', hdj⟩ := h.object d.id _ hi.knows
    have same : Item.definition e = j := Option.some.inj (hj.knows.symm.trans (hid ▸ hj'))
    rw [same]
    exact hdj hm

end Store.Preserves

def Step.interns : Step → Bool
  | intern .. | internOptional .. | internObject .. | prepare .. => true
  | _ => false

def Step.target? : Step → Option String
  | internObject _ _ target => some target
  | _ => none

namespace Session

variable {s t : Session} {st : Step} {a : Answer}

lemma step_makes (s : Session) (st : Step) {Q : Answer → Session → Prop}
    (h : (run st).Makes (· = { s with events := [] }) Q) :
    Q (step s st).1 (step s st).2.2 ∨ (step s st).1 = .invalid ∧ (step s st).2.2 = s := by
  cases hrun : (run st).run { s with events := [] } with
  | none => exact .inr (by simp [step, hrun])
  | some r => exact .inl (by simpa [step, hrun] using h _ rfl r.1 r.2 hrun)

def Conserves (σ : Store) (s : Session) (target : Option String) (t : Session) : Prop :=
  ∃ τ, t.Good τ ∧ σ.Preserves τ ∧
    ∀ r i j, target ≠ some r → s.register? r = some i → t.register? r = some j → i.Means j

lemma conserves_same (hg : s.Good σ) (target : Option String) : Conserves σ s target s :=
  ⟨σ, hg, .refl σ, fun _ i _ _ hi hj => Option.some.inj (hi.symm.trans hj) ▸ .refl i⟩

lemma means_of_mem (hg : s.Good σ) {r : String} (hi : s.register? r = some i)
    (hj : (r, j) ∈ s.registers) : i.Means j :=
  Option.some.inj (hi.symm.trans (lookup_of_mem hg.boundOnce hj)) ▸ .refl i

lemma Outcome.conserves {p r : String} {whole : Item → Prop} (hg : s.Good σ) (h : Outcome σ s p r whole a t) :
    Conserves σ s none t := by
  rcases h with ⟨rfl, -⟩ | ⟨q, i, j, e, m, l, z, -, hi, -, hr, τ, good, -, hp, -, hij, -⟩
  · exact conserves_same hg none
  · refine ⟨τ, good, hp, fun r' i' j' _ hi' hj' => ?_⟩
    rw [register?, hr] at hj'
    by_cases he : r' = r
    · subst he
      rw [lookup_assign_self] at hj'
      exact Option.some.inj (hi.symm.trans hi') ▸ Option.some.inj hj' ▸ hij
    · rw [lookup_assign_other he] at hj'
      exact means_of_mem hg hi' (mem_of_lookup hj')

lemma Delivery.conserves {p target : String} {source : ItemSource} (hg : s.Good σ)
    (h : Delivery σ s p source target a t) : Conserves σ s (some target) t := by
  rcases h with ⟨τ, good, -, hp, hr, -⟩ | ⟨q, i, u, j, v, z, -, -, -, hu, hr, τ, good, -, hp, -⟩
  · exact ⟨τ, good, hp, fun r i j _ hi hj => means_of_mem hg hi (hr _ (mem_of_lookup hj))⟩
  · refine ⟨τ, good, hp, fun r i' j' hne hi' hj' => ?_⟩
    rw [register?, hr, lookup_assign_other fun he => hne (congrArg some he.symm)] at hj'
    exact means_of_mem hg hi' (hu _ (mem_of_lookup hj'))

lemma conserves_of_makes {target : Option String} (hg : s.Good σ)
    (h : (run st).Makes (· = { s with events := [] }) fun _ t => Conserves σ { s with events := [] } target t) :
    Conserves σ s target (step s st).2.2 := by
  rcases step_makes s st h with h | ⟨-, h⟩
  · exact h
  · rw [h]
    exact conserves_same hg target

theorem step_conserves (hg : s.Good σ) (hst : st.interns = true) : Conserves σ s st.target? (step s st).2.2 := by
  have hg' := hg.withEvents []
  cases st with
  | intern p r => exact conserves_of_makes hg ((intern_makes hg' p r).imp fun a t h => h.conserves hg')
  | internOptional p r =>
    exact conserves_of_makes hg ((internOptional_makes hg' p r).imp fun a t h => h.conserves hg')
  | prepare p r => exact conserves_of_makes hg ((prepare_makes hg' p r).imp fun a t h => h.conserves hg')
  | internObject p source target =>
    exact conserves_of_makes hg ((internObject_makes hg' p source target).imp fun a t h => h.conserves hg')
  | _ => simp [Step.interns] at hst

lemma internObject_means {p target : String} {source : ItemSource} {v : Option String} {z : Stats} {u : Session}
    (hg : s.Good σ) (ha : (step s (.internObject p source target)).1 = .made v z)
    (hi : source.take.run { s with events := [] } = some (i, u))
    (hj : (step s (.internObject p source target)).2.2.register? target = some j) : i.Means j := by
  rcases step_makes s (.internObject p source target)
    (internObject_makes (hg.withEvents []) p source target) with h | ⟨h, -⟩
  · rcases h with ⟨-, -, -, -, -, hn⟩ | ⟨q, i', u', j', v', z', -, hi', -, -, hr, τ, -, -, -, -, hij, -⟩
    · exact absurd ha (hn v z)
    · rw [register?, hr, lookup_assign_self] at hj
      rw [hi, Option.some.injEq, Prod.mk.injEq] at hi'
      exact hi'.1 ▸ Option.some.inj hj ▸ hij
  · simp [h] at ha

/-- Interning keeps the structural value of all that is alive before and after it. Probes are left out: they are equal
for interning when their tags are. -/
theorem interning_keeps_meaning (hasher : Hasher) (options : Options) (steps : List Step) (st : Step)
    (hst : st.interns = true) :
    let s := (start hasher options).after steps
    let t := (step s st).2.2
    (∀ i j : Item, s.Holds i → t.Holds j → i.IsModel → i.SameObject j → i.SameValue j) ∧
    (∀ (r : String) (i j : Item), st.target? ≠ some r → s.register? r = some i → t.register? r = some j →
      i.IsModel → i.SameValue j) ∧
    ∀ (p target : String) (source : ItemSource) (v : Option String) (z : Stats) (i j : Item) (u : Session),
      st = .internObject p source target → (step s st).1 = .made v z →
      source.take.run { s with events := [] } = some (i, u) → t.register? target = some j → i.IsModel →
      i.SameValue j := by
  intro s t
  obtain ⟨σ, good, -⟩ := start_good hasher options steps
  obtain ⟨τ, good', hp, hr⟩ := step_conserves good hst
  refine ⟨fun i j hi hj hm hs => ?_, fun r i j ht hi hj hm => ?_,
    fun p target source v z i j u he ha hi hj hm => ?_⟩
  · exact Item.sameValue_of_bare (hp.bare_eq (good.fits_of_holds hi) (good'.fits_of_holds hj) hm hs)
  · exact Item.sameValue_of_bare (hr r i j ht hi hj hm)
  · subst he
    exact Item.sameValue_of_bare (internObject_means good ha hi hj hm)

theorem failed_intern_keeps_meaning :
    let steps := [.internString "P" "p" "x", .bind "f" (.entity .typeRef (.named "N" "F" [])), .freeze "f",
      .bind "a" (.entity .parameter (.make (some (.fresh "p")) (.register "f") [] none ⟨none, ⟨0, 0⟩, ⟨0, 0⟩⟩ []))]
    let s := (start .colliding ⟨false, 0⟩).after steps
    let i (name : Nat) : Item := .entity .parameter ⟨6, ⟨name, "p"⟩, ⟨4, .named ⟨96, "N"⟩ ⟨97, "F"⟩ ⟨false, 3, []⟩⟩,
      ⟨false, 5, []⟩, none, ⟨none, ⟨0, 0⟩, ⟨0, 0⟩⟩, .none⟩
    s.register? "a" = some (i 98) ∧ (step s (.intern "P" "a")).2.2.register? "a" = some (i 95) ∧
      (i 98).SameValue (i 95) := by
  intro steps s i
  have kept := (interning_keeps_meaning .colliding ⟨false, 0⟩ steps (.intern "P" "a") rfl).2.1
  exact ⟨rfl, rfl, kept "a" (i 98) (i 95) (by simp [Step.target?]) rfl rfl rfl⟩

end Session

end CodeModel
