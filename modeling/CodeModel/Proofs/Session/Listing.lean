import CodeModel.Proofs.Interning.Listing
import CodeModel.Proofs.Session.Bystanders
import CodeModel.Proofs.Session.Lists

namespace CodeModel.Session

variable {σ τ : Store} {s t u : Session} {p r : String} {q : Provider} {k : Kind} {l : EntityList k.Carrier}

structure Stands (h : Hasher) (q : Provider) (k : Kind) (x y : Handle k.Carrier) : Prop where
  means : (Item.entity k x).Means (.entity k y)
  canonical : q.Canonical h (.entity k y)
  only : k.isModel = true → ∀ z, q.Canonical h (.entity k z) → (Item.entity k z).bare = (Item.entity k x).bare → z = y

structure ListEnd (h : Hasher) (q q' : Provider) (k : Kind) (l m : EntityList k.Carrier) (e : Option ModelError) :
    Prop where
  failed : e ≠ none → m = l ∧ (∀ a ∈ q'.lists k, a.list.sequence ≠ l.sequence) ∧
    (k.isModel = true → ∀ a ∈ q'.lists k, (Item.list k a.list).bare = (Item.list k l).bare → a ∈ q.lists k)
  empty : l.items = [] → e = none ∧ m = l ∧ q' = q
  sealed : e = none → l.items ≠ [] → m.sealed = true ∧ (∃ a ∈ q'.lists k, a.list = m) ∧
    List.Forall₂ (Stands h q' k) l.items m.items

lemma stands_elements {h : Hasher} {q' : Provider} {m : EntityList k.Carrier} (hs : q'.Sound h)
    (elements : List.Forall₂ Item.Means (l.items.map (.entity k)) (m.items.map (.entity k)))
    {a : Record k.Carrier} (ha : a ∈ q'.lists k) (hm : a.list = m) : List.Forall₂ (Stands h q' k) l.items m.items := by
  subst hm
  rw [List.forall₂_map_left_iff, List.forall₂_map_right_iff] at elements
  refine List.forall₂_iff_get.mpr ⟨elements.length_eq, fun n hn hn' => ?_⟩
  have means := elements.get hn hn'
  have canonical : q'.Canonical h (.entity k (a.list.items.get ⟨n, hn'⟩)) :=
    hs.recordParts k a ha _ (List.get_mem _ _)
  refine ⟨means, canonical, fun hk z hz hb => ?_⟩
  exact (hs.matches_of_bare (i := .entity k z) hk hz canonical (hb.trans (means hk).symm)).entity_eq

theorem listWork_ends (hg : s.Good σ) (hq : s.providers.lookup p = some q) (hl : σ.Fits (.list k l)) :
    ListEnd s.hasher q (listWork s q k l).2.provider k l (listWork s q k l).1 (listWork s q k l).2.failure where
  failed he := by
    have work := hg.work hq
    refine ⟨congrArg Prod.fst (Kind.internList_run_failed rfl he), fun a ha => ?_, fun hk a ha value => ?_⟩
    · exact internList_failed_sequence work hl rfl he ha
    · exact internList_failed_value work hl rfl he hk ha value
  empty hn := by
    have unmoved : listWork s q k l = (l, s.work q) := internList_empty rfl hn
    rw [unmoved]
    exact ⟨rfl, rfl, rfl⟩
  sealed he hn := by
    have work := hg.work hq
    obtain ⟨τ, hr⟩ := internList_writes_nothing (s := s.setting) work hl
    obtain ⟨a, ha, hm⟩ := internList_records (s := s.setting) work hl hn he
    exact ⟨congrArg EntityList.sealed hm.symm, ⟨a, ha, hm⟩,
      stands_elements hr.good.sound (internList_elements work hl) ha hm⟩

lemma holds_without {a : Item} (h : (s.without r).Holds a) (events : List Event) :
    (({ s.without r with events } : Session).without r).Holds a :=
  h.mono rfl (fun _ hb => mem_unassign.mpr ⟨hb, (mem_unassign.mp hb).2⟩) (fun _ hb => hb) fun _ hb => hb

structure ListInterned (s : Session) (p r : String) (q : Provider) (k : Kind) (l : EntityList k.Carrier) : Prop where
  holds : ∀ a, (s.without r).Holds a → (step s (.intern p r)).2.2.Holds a
  unwritten : ∀ a b, s.Holds a → (step s (.intern p r)).2.2.Holds b → a.SameObject b → Item.Matches a b
  frozen : (step s (.intern p r)).2.2.frozen = s.frozen
  ends : ∃ m q' e, (step s (.intern p r)).1 = .interned e (some (m.identity != l.identity)) (some m.sealed) q'.stats ∧
    (step s (.intern p r)).2.2.register? r = some (.list k m) ∧
    (step s (.intern p r)).2.2.providers.lookup p = some q' ∧ ListEnd s.hasher q q' k l m e

theorem Good.list_interned (hg : s.Good σ) (hq : s.providers.lookup p = some q) (hr : s.register? r = some (.list k l)) :
    ListInterned s p r q k l := by
  obtain ⟨o, ho⟩ : ∃ o : Session, o = { s with events := [] } := ⟨_, rfl⟩
  have good : o.Good σ := ho ▸ hg.withEvents []
  have found : o.providers.lookup p = some q := by rw [ho]; exact hq
  have bound : o.register? r = some (.list k l) := by rw [ho]; exact hr
  have hasher : o.hasher = s.hasher := by rw [ho]
  have fits := good.fits_register bound
  obtain ⟨answer, ended⟩ := step_of_run ((congrArg _ ho.symm).trans (intern_list_run found bound))
  obtain ⟨τ, rewrite⟩ := internList_writes_nothing (s := o.setting) (good.work found) fits
  obtain ⟨good', -⟩ := good.put_rewritten found bound (rewrite.weaken fun _ _ _ => trivial) (by simp)
  obtain ⟨τ', σ', v, j, settles⟩ := (Calls.intern (p := p) hr).settles hg hq
  refine ⟨fun a ha => settles.holds hq (holds_without ha _), fun a b ha hb hs => ?_, settles.leaves.frozen,
    _, _, _, answer, ?_, ?_, hasher ▸ listWork_ends good found fits⟩
  · have fits : τ.Fits a := rewrite.fits_of_keep (good.work found) (hg.fits_of_holds ha) fun _ _ => trivial
    exact Store.matches_of_sameObject fits (good'.fits_of_holds (ended ▸ hb)) hs
  · rw [ended]
    exact lookup_assign_self
  · rw [ended]
    exact lookup_assign_self

/-- Interning a list is all or nothing, and writes no entity and no list that was there. -/
theorem list_interning_atomic (hasher : Hasher) (options : Options) (steps : List Step)
    (hq : ((start hasher options).after steps).providers.lookup p = some q)
    (hr : ((start hasher options).after steps).register? r = some (.list k l)) :
    ListInterned ((start hasher options).after steps) p r q k l := by
  obtain ⟨σ, good, -⟩ := start_good hasher options steps
  exact good.list_interned hq hr

theorem list_interning_atomic_failing :
    let s := (start .colliding ⟨false, 0⟩).after [.bind "f" (.entity .constant (.make (.shared .null) (.plain .null))),
      .freeze "f", .bind "l" (.list .constant [.make (.shared .dynamic) (.plain .null), .register "f"])]
    let t := (step s (.intern "P" "l")).2.2
    ∃ l : EntityList Constant, s.register? "l" = some (.list .constant l) ∧
      t.register? "l" = some (.list .constant l) ∧ l.items ≠ [] := by
  intro s t
  have bound : (s.providers.lookup "P").isSome = true := by decide +kernel
  obtain ⟨q, hq⟩ := Option.isSome_iff_exists.mp bound
  have item : ((s.register? "l").bind (Item.list? .constant)).any (fun l => l.items.length == 2) = true := by
    decide +kernel
  obtain ⟨l, hl, length⟩ := (Option.any_eq_true ..).mp item
  obtain ⟨i, hi, hil⟩ := Option.bind_eq_some_iff.mp hl
  obtain rfl := Item.list?_eq_some hil
  have fails : (step s (.intern "P" "l")).1.verdict?.any (fun v => v.1.isSome) = true := by decide +kernel
  obtain ⟨m, q', e, answer, after, -, ends⟩ := (list_interning_atomic .colliding ⟨false, 0⟩ _ hq hi).ends
  rw [answer, Answer.verdict?, Option.any_some] at fails
  obtain ⟨rfl, -⟩ := ends.failed (Option.isSome_iff_ne_none.mp fails)
  refine ⟨m, hi, after, fun hn => ?_⟩
  simp [hn] at length

end CodeModel.Session
