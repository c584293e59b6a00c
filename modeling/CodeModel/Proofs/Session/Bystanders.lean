import CodeModel.Proofs.Session.Calls
import CodeModel.Proofs.Session.Meaning

namespace CodeModel

theorem Store.matches_of_sameObject {σ : Store} {i j : Item} (hi : σ.Fits i) (hj : σ.Fits j) (h : i.SameObject j) :
    Item.Matches i j := by
  obtain ⟨rfl, rfl⟩ | ⟨t, u, rfl, rfl, hid⟩ | ⟨k, x, y, rfl, rfl, hid⟩ | ⟨k, l, m, rfl, rfl, storage⟩ |
    ⟨d, e, rfl, rfl, hid⟩ := h.cases
  · exact .refl _
  · obtain ⟨id, v⟩ := t
    obtain ⟨id', v'⟩ := u
    obtain rfl : id = id' := hid
    rw [fits_text] at hi hj
    obtain rfl : v = v' := Option.some.inj (hi.symm.trans hj)
    exact .refl _
  · rw [entity_eq hi hj hid]
    exact .refl _
  · rcases EntityList.sameStorage_cases storage with ⟨hl, hm⟩ | ⟨hl, hm, hs⟩
    · exact .empty hl hm
    · rw [list_eq hi hj hl hm hs]
      exact .refl _
  · have known := hi.knows.symm.trans ((congrArg σ.object hid).trans hj.knows)
    rw [Option.some.inj known]
    exact .refl _

section Failing

variable {s : Setting} {w : Work} {k : Kind} {held : Held} {x : Handle k.Carrier}

lemma Kind.intern_id (he : ((k.intern s held x).run w).2.failure ≠ none) :
    ((k.intern s held x).run w).1.id = x.id := by
  cases hf : w.failure with
  | some e =>
    have failed : (k.intern s held x).run w = (x, w) := unlessFailed_run_failed (by simp [hf])
    rw [failed]
  | none =>
    rcases intern_run_failed hf he with h | ⟨y, held', es, hy, -, h⟩
    · rw [h]
    · rw [h]
      exact hy

lemma Kind.prepareInPlace_id : ((k.prepareInPlace s held x).run w).1.id = x.id := by
  by_cases hfrozen : x.id ∈ s.frozen
  · rw [prepareInPlace_run_frozen hfrozen]
  · rw [prepareInPlace_run hfrozen]

lemma Item.sameObject_entity {x y : Handle k.Carrier} (h : x.id = y.id) :
    (Item.entity k x).SameObject (.entity k y) := by
  simp [SameObject, same?, h]

theorem Item.intern_same (i : Item) (hf : w.failure = none) (he : ((i.intern s held).run w).2.failure ≠ none) :
    i.SameObject ((i.intern s held).run w).1 := by
  cases i with
  | nothing => exact absurd hf he
  | text t =>
    have pooled : ((poolText s t).run w).2.failure = none := by
      rw [poolText_run t hf]
      exact hf
    exact absurd pooled he
  | entity k x => exact sameObject_entity (Kind.intern_id he).symm
  | list k l =>
    have failed := Kind.internList_run_failed hf he
    have result : (((Item.list k l).intern s held).run w).1 = .list k ((k.internList s l).run w).1 := rfl
    rw [result, failed]
    exact (Matches.refl _).sameObject
  | definition d => exact (Definition.internMembers_id d).symm

end Failing

namespace Session

variable {σ τ : Store} {s t u : Session} {p r : String} {q : Provider} {st : Step} {i j : Item} {v : Work} {a b : Item}

lemma Good.keeps_of_holds (hg : s.Good σ) (ha : s.Holds a) {id : Nat} (hl : a.Labels id) : s.Keeps none id := by
  have within {i : Item} (hi : Item.Within a i) : i.Labels id := by
    obtain ⟨c, hc, hid⟩ := hl
    exact ⟨c, hc.trans hi, hid⟩
  cases ha with
  | register hb hi => exact .inl ⟨_, hb, within hi⟩
  | provider hb hr hi =>
    exact .inr (.inr ⟨_, hb, by simp, (hg.sound _ hb).registered_of_labels hr.canonical (within hi)⟩)
  | pool => simp at hl
  | shared t => exact .inr (.inl ⟨t, Item.labels_shared.mp hl⟩)

lemma Settles.fits_of_holds (h : Settles s p q st r i u σ τ v j) (hq : s.providers.lookup p = some q)
    (ha : u.Holds a) : τ.Fits a := by
  have found : u.providers.lookup p = some q := h.aside.providers ▸ hq
  apply (h.good.fits_of_holds ha).mono h.rewrite.extends'
  intro id hl
  exact h.good.kept found h.rewrite (.inl (h.good.keeps_of_holds ha hl))

lemma Settles.grows (h : Settles s p q st r i u σ τ v j) (hq : s.providers.lookup p = some q) {b : String × Provider}
    (hb : b ∈ u.providers) : ∃ c ∈ (step s st).2.2.providers, b.2.Grows u.hasher c.2 := by
  have once := h.good.namedOnce
  rw [h.leaves.providers]
  by_cases hbp : b.1 = p
  · obtain ⟨n, c⟩ := b
    subst hbp
    have found : u.providers.lookup n = some q := h.aside.providers ▸ hq
    obtain rfl : c = q := Option.some.inj ((lookup_of_mem once hb).symm.trans found)
    exact ⟨(n, v.provider), (mem_assign once).mpr (.inl rfl), h.rewrite.grows⟩
  · exact ⟨b, (mem_assign once).mpr (.inr ⟨hb, hbp⟩), .refl _ b.2⟩

theorem Settles.holds (h : Settles s p q st r i u σ τ v j) (hq : s.providers.lookup p = some q)
    (ha : (u.without r).Holds a) : (step s st).2.2.Holds a := by
  cases ha with
  | register hb hi =>
    obtain ⟨hb, hbr⟩ := mem_unassign.mp hb
    exact .register (h.leaves.registers _ hb hbr) hi
  | provider hb hc hi =>
    obtain ⟨c, held, grows⟩ := h.grows hq hb
    have root := hc.mono grows
    rw [← h.leaves.hasher] at root
    exact .provider held root hi
  | pool hb ht =>
    have held := h.leaves.pools ▸ hb
    have kept := h.leaves.hasher ▸ ht
    exact .pool held kept
  | shared t => exact .shared t

lemma Settles.same (h : Settles s p q st r i u σ τ v j) (he : v.failure ≠ none) : i.SameObject j := by
  obtain ⟨act, performs, ran⟩ := h.performs
  obtain ⟨rfl, rfl⟩ := Prod.mk.inj ran
  cases performs with
  | interns => exact i.intern_same rfl he
  | prepares => exact Item.sameObject_entity Kind.prepareInPlace_id.symm

/-- Whatever a call interns, and whether or not it fails: what anything else held it holds on, with the same fields. -/
theorem bystanders_unchanged (hasher : Hasher) (options : Options) (steps : List Step)
    (hq : ((start hasher options).after steps).providers.lookup p = some q)
    (h : Calls ((start hasher options).after steps) p st r i u) :
    let s := (start hasher options).after steps
    let t := (step s st).2.2
    (∀ a, (u.without r).Holds a → t.Holds a) ∧
      (∀ a b, u.Holds a → t.Holds b → a.SameObject b → Item.Matches a b) ∧
      t.frozen = u.frozen ∧
      (∀ e m l z, (step s st).1 = .interned (some e) m l z → ∃ j, t.register? r = some j ∧ i.SameObject j) ∧
      ∀ (z : Setting) (k : Kind) (held : Held) (x : Handle k.Carrier) (w : Work),
        ((k.intern z held x).run w).2.failure ≠ none → ((k.intern z held x).run w).1.id = x.id := by
  intro s t
  obtain ⟨σ₀, good, -⟩ := start_good hasher options steps
  obtain ⟨σ, τ, v, j, settles⟩ := h.settles good hq
  refine ⟨fun a ha => settles.holds hq ha, fun a b ha hb hs => ?_, settles.leaves.frozen, fun e m l z hans => ?_,
    fun z k held x w he => Kind.intern_id he⟩
  · exact Store.matches_of_sameObject (settles.fits_of_holds hq ha) (settles.ended.fits_of_holds hb) hs
  · have verdict := settles.leaves.verdict
    rw [hans] at verdict
    have failure : some e = v.failure := congrArg Prod.fst (Option.some.inj verdict)
    exact ⟨j, settles.leaves.delivered (.inr ⟨_, _, _, _, hans⟩), settles.same (by simp [← failure])⟩

theorem bystanders_unchanged_failing :
    let s := (start .colliding ⟨false, 0⟩).after [.bind "e" (.entity .typeRef (.named "N" "E" [])),
      .bind "f" (.entity .typeRef (.named "N" "F" [])), .freeze "f",
      .bind "a" (.entity .attr (.make (.register "e") [.make (.register "f") (.plain .null)] []
        ⟨none, ⟨0, 0⟩, ⟨0, 0⟩⟩))]
    let t := (step s (.intern "P" "a")).2.2
    t.frozen = s.frozen ∧ ∃ c i j, s.register? "e" = some c ∧ (∀ b, t.Holds b → c.SameObject b → Item.Matches c b) ∧
      s.register? "a" = some i ∧ t.register? "a" = some j ∧ i.SameObject j := by
  intro s t
  have bound : (s.providers.lookup "P").isSome = true := by decide +kernel
  obtain ⟨q, hq⟩ := Option.isSome_iff_exists.mp bound
  have item : (s.register? "a").isSome = true := by decide +kernel
  obtain ⟨i, hi⟩ := Option.isSome_iff_exists.mp item
  have element : ((s.without "a").register? "e").isSome = true := by decide +kernel
  obtain ⟨c, hc⟩ := Option.isSome_iff_exists.mp element
  have fails : ∃ e m l z, (step s (.intern "P" "a")).1 = .interned (some e) m l z := ⟨_, _, _, _, rfl⟩
  obtain ⟨e, m, l, z, answer⟩ := fails
  obtain ⟨-, same, frozen, kept, -⟩ := bystanders_unchanged .colliding ⟨false, 0⟩ _ hq (.intern hi)
  obtain ⟨j, hj, sameObject⟩ := kept e m l z answer
  exact ⟨frozen, c, i, j, hc, fun b hb hs => same c b (holds_of_register? hc) hb hs, hi, hj, sameObject⟩

end Session

end CodeModel
