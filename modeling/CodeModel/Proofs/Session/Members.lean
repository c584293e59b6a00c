import CodeModel.Proofs.Interning.Members
import CodeModel.Proofs.Session.Closure
import CodeModel.Proofs.Session.Failure
import CodeModel.Proofs.Session.Yield

namespace CodeModel

def Item.definition? : Item → Option (Handle Definition)
  | definition d => some d
  | _ => none

def Definition.soleBase? (d : Definition) : Option (Nat × Text × Text) :=
  match d.bases.items, d.methods.items, d.attributes.items with
  | [⟨id, .named ns name ⟨_, _, []⟩⟩], [], [] => some (id, ns, name)
  | _, _, _ => none

lemma Definition.items_of_soleBase {d : Definition} {id : Nat} {ns name : Text}
    (h : d.soleBase? = some (id, ns, name)) :
    (∃ sealed storage, d.bases.items = [⟨id, .named ns name ⟨sealed, storage, []⟩⟩]) ∧ d.methods.items = [] ∧
      d.attributes.items = [] := by
  rw [soleBase?] at h
  split at h
  next bases methods attributes =>
    cases h
    exact ⟨⟨_, _, bases⟩, methods, attributes⟩
  next => cases h

namespace Session

variable {σ : Store} {s t : Session} {p r : String} {q : Provider} {d e : Handle Definition} {n : Stats}

lemma register_of_any {test : Handle Definition → Bool}
    (h : ((s.register? r).bind Item.definition?).any test = true) :
    ∃ d, s.register? r = some (.definition d) ∧ test d = true := by
  obtain ⟨d, hd, passed⟩ := (Option.any_eq_true ..).mp h
  obtain ⟨i, hi, definition⟩ := Option.bind_eq_some_iff.mp hd
  cases i with
  | definition => exact ⟨d, hi.trans (Option.some.inj definition ▸ rfl), passed⟩
  | _ => cases definition

lemma not_frozenIn_empty {k : Kind} {l : EntityList k.Carrier} {a : Item} {z : Frozen} (ha : Item.Within a (.list k l))
    (hl : l.items = []) : ¬ a.FrozenIn z :=
  ha.eq_of_leaf (by simp [hl]) ▸ not_frozenIn_list l z

structure Collects (s : Session) (p r : String) (d e : Handle Definition) : Prop where
  result : (step s (.intern p r)).2.2.register? r = some (.definition e)
  object : e.id = d.id
  value : (Item.definition e).bare = (Item.definition d).bare
  frozen : (step s (.intern p r)).2.2.frozen = s.frozen

/-- Definition `e`, which is in register `r`, gets the lists of definition `d` when it is interned in provider `p`, and
no entity, no list and no miss is counted. -/
def Rejoins (s : Session) (p r : String) (q : Provider) (e d : Handle Definition) : Prop :=
  ∃ e' n, (step s (.intern p r)).1.verdict? = some (none, n) ∧ Collects s p r e e' ∧
    n.entities = q.stats.entities ∧ n.lists = q.stats.lists ∧ n.misses = q.stats.misses ∧
    List.Forall₂ Item.Matches (Item.definition e').lists (Item.definition d).lists

theorem Good.collects (hg : s.Good σ) (hq : s.providers.lookup p = some q) (hd : s.register? r = some (.definition d))
    (ok : (step s (.intern p r)).1.verdict? = some (none, n)) :
    ∃ e q', Collects s p r d e ∧ (step s (.intern p r)).2.2.providers.lookup p = some q' ∧ n = q'.stats ∧
      q'.Sound s.hasher ∧ q.Grows s.hasher q' ∧ (∀ m ∈ e.val.parts, q'.Canonical s.hasher m) ∧
      Tallies q.Settled (·.FrozenIn s.frozen) [.definition d] ⟨q.stock s.hasher, q.stats, none⟩
        ⟨q'.stock s.hasher, q'.stats, none⟩ := by
  obtain ⟨σ, τ, v, j, settles⟩ := (Calls.intern (p := p) hd).settles hg hq
  have call := settles.receives hq rfl
  have ran := settles.interned rfl
  rw [Item.intern, StateT.run_map] at ran
  obtain ⟨rfl, rfl⟩ := Prod.mk.inj ran
  obtain ⟨calm, rfl⟩ := settles.outcome ok
  have tallies := call.intake.tallies trivial
  rw [Work.inventory, calm] at tallies
  exact ⟨_, _, ⟨call.result calm, Definition.internMembers_id d, call.intake.means trivial, settles.leaves.frozen⟩,
    call.provider, rfl, call.intake.sound, call.intake.grows, (call.intake.canonical calm).2, tallies⟩

theorem Good.collected (hg : s.Good σ) (hq : s.providers.lookup p = some q) (hd : s.register? r = some (.definition d))
    (hm : ∀ m ∈ d.val.parts, q.Canonical s.hasher m) :
    (∃ events, (step s (.intern p r)).2.2 = { s with events }) ∧ (step s (.intern p r)).1.verdict? =
      some (if d.id ∈ s.frozen then some (.preparedAfterFreeze Definition.kindName) else none, q.stats) := by
  obtain ⟨o, ho⟩ : ∃ o : Session, o = { s with events := [] } := ⟨_, rfl⟩
  have good : o.Good σ := ho ▸ hg.withEvents []
  have found : o.providers.lookup p = some q := by rw [ho, hq]
  have item : o.register? r = some (.definition d) := by rw [ho]; exact hd
  have sound : (o.work q).provider.Sound o.setting.hasher := (good.work found).sound
  obtain ⟨a, t, hrun⟩ := intern_ends found item
  obtain ⟨ha, ht⟩ : (step s (.intern p r)).1 = a ∧ (step s (.intern p r)).2.2 = t := step_of_run (ho ▸ hrun)
  obtain ⟨es, unmoved⟩ := internMembers_canonical (s := o.setting) (w := o.work q) rfl sound (by rw [ho]; exact hm)
  have idle := (intern_calls o p r o rfl _ _ hrun).idle found item (by rw [Item.intern, StateT.run_map, unmoved]; rfl)
  rw [ha, ht, idle.1, idle.2, ho]
  exact ⟨⟨es, rfl⟩, rfl⟩

theorem Good.rejoins (hg : s.Good σ) (hq : s.providers.lookup p = some q) (he : s.register? r = some (.definition e))
    (hz : e.id ∉ s.frozen) (hm : ∀ l ∈ (Item.definition d).lists, q.Canonical s.hasher l)
    (value : (Item.definition e).lists.map Item.bare = (Item.definition d).lists.map Item.bare)
    (clear : ∀ l ∈ (Item.definition e).lists, ∀ a, Item.Within a l → a.FrozenIn s.frozen → q.Canonical s.hasher a) :
    Rejoins s p r q e d := by
  have passable (a : Item) (ha : Item.Within a (.definition e)) (hza : a.FrozenIn s.frozen) :
      q.Canonical s.hasher a := by
    rcases Definition.within_lists ha with rfl | ⟨l, hl, ha⟩ | rfl | ⟨t, rfl⟩
    · obtain ⟨id, hid, hzi⟩ := hza
      exact absurd hzi (Option.some.inj hid ▸ hz)
    · exact clear l hl a ha hza
    · trivial
    · exact absurd hza (not_frozenIn_text t _)
  have calm : obstacle (q.Canonical s.hasher) (·.FrozenIn s.frozen) [.definition e] = none :=
    obstacle_eq_none_iff.mpr passable
  obtain ⟨n, verdict⟩ := (Calls.intern (p := p) he).verdict hg hq rfl trivial
  replace verdict := verdict.trans (congrArg (fun o => some (o, n)) calm)
  obtain ⟨e', q', collects, hq', rfl, sound, grows, canonical, tallies⟩ := hg.collects hq he verdict
  have before : q.Sound s.hasher := hg.sound _ (mem_of_lookup hq)
  have stock : q'.stock s.hasher = q.stock s.hasher ∪ (Item.definition e).values := by
    simpa using tallies.stock rfl fun i hi => before.values_subset hi.canonical
  have kept (v : Item) (hv : v ∈ q'.stock s.hasher) (sort : v.IsEntity ∨ v.IsList) : v ∈ q.stock s.hasher := by
    rw [stock] at hv
    refine hv.elim id fun hv => ?_
    obtain ⟨l, hl, hv⟩ := Definition.mem_values_lists hv sort
    obtain ⟨m, hm', equal⟩ := List.mem_map.mp (value ▸ List.mem_map_of_mem hl)
    rw [← Item.values_congr equal] at hv
    exact before.values_subset (hm m hm') hv
  obtain ⟨entities, lists, misses⟩ := tallies.gains.unmissed kept
  refine ⟨e', _, verdict, collects, entities, lists, misses, Provider.forall₂_matches ?_ fun l hl m hm' hlm => ?_⟩
  · exact (Definition.lists_bare collects.value).trans value
  · have part := Definition.lists_subset _ hl
    have model : l.IsModel := Item.IsModel.parts (i := .definition e') trivial l part
    exact sound.matches_of_bare model (canonical l part) (.mono grows (hm m hm')) hlm

/-- Once the members of a definition are interned, an unfrozen definition with equal lists gets the same ones. -/
theorem members_shared (hasher : Hasher) (options : Options) (steps more : List Step)
    (hq : ((start hasher options).after steps).providers.lookup p = some q)
    (hd : ((start hasher options).after steps).register? r = some (.definition d))
    (ok : (step ((start hasher options).after steps) (.intern p r)).1.verdict? = some (none, n))
    (he : ∀ st ∈ more, ¬ st.Ends p) :
    let s := (start hasher options).after steps
    let t := (step s (.intern p r)).2.2.after more
    ∃ d' q', Collects s p r d d' ∧ t.providers.lookup p = some q' ∧
      (∀ m ∈ d'.val.parts, ∀ a, Item.Within a m → q'.Canonical hasher a ∧ q'.Confirms hasher a) ∧
      (∀ r', t.register? r' = some (.definition d') →
        (∃ events, (step t (.intern p r')).2.2 = { t with events }) ∧ (step t (.intern p r')).1.verdict? =
          some (if d'.id ∈ t.frozen then some (.preparedAfterFreeze Definition.kindName) else none, q'.stats)) ∧
      ∀ r' e, t.register? r' = some (.definition e) → e.id ∉ t.frozen →
        (Item.definition e).lists.map Item.bare = (Item.definition d').lists.map Item.bare →
        (∀ l ∈ (Item.definition e).lists, ∀ a, Item.Within a l → a.FrozenIn t.frozen → q'.Canonical hasher a) →
        Rejoins t p r' q' e d' := by
  intro s t
  obtain ⟨σ, good, hash⟩ : ∃ σ, s.Good σ ∧ s.hasher = hasher := start_good hasher options steps
  obtain ⟨d', q₁, collects, hq₁, -, -, -, canonical, -⟩ := good.collects hq hd ok
  obtain ⟨σ₁, good₁, later₁⟩ := step_reaches good (.intern p r)
  obtain ⟨q', hq', grows⟩ := after_lookup good₁ he hq₁
  obtain ⟨τ, goodEnd, later⟩ := after_reaches good₁ more
  have same : t.hasher = hasher := later.hasher.trans (later₁.hasher.trans hash)
  rw [later₁.hasher, hash] at grows
  rw [hash] at canonical
  have sound : q'.Sound hasher := same ▸ goodEnd.sound _ (mem_of_lookup hq')
  have members (m : Item) (hm : m ∈ d'.val.parts) : q'.Canonical hasher m := .mono grows (canonical m hm)
  refine ⟨d', q', collects, hq', fun m hm a ha => ?_, fun r' hr => ?_, fun r' e hr hz value clear => ?_⟩
  · have within := sound.canonical_within (members m hm) ha
    exact ⟨within, sound.confirms within⟩
  · exact goodEnd.collected hq' hr (same ▸ members)
  · exact goodEnd.rejoins hq' hr hz (fun l hl => same ▸ members l (Definition.lists_subset _ hl)) value (same ▸ clear)

theorem members_shared_rebuilt :
    let recipe : DefinitionRecipe :=
      ⟨"N", "D", .classType, .unstated, [.named "N" "B" []], [], [], ⟨none, ⟨0, 0⟩, ⟨0, 0⟩⟩⟩
    let s := (start .colliding ⟨false, 0⟩).after [.bind "d" (.definition recipe), .bind "e" (.definition recipe)]
    let t := (step s (.intern "P" "d")).2.2
    ∃ d e : Handle Definition, t.register? "d" = some (.definition d) ∧
      (∃ events, (step t (.intern "P" "d")).2.2 = { t with events }) ∧
      (step t (.intern "P" "e")).2.2.register? "e" = some (.definition e) ∧ d.id ≠ e.id ∧
      List.Forall₂ Item.Matches (Item.definition e).lists (Item.definition d).lists := by
  intro recipe s t
  have built (r : String) (hr : r ∈ ["d", "e"]) : ((s.register? r).bind Item.definition?).any (fun d =>
      d.id == (if r = "d" then 8 else 14) && d.val.soleBase?.any fun b =>
        b.1 == (if r = "d" then 4 else 10) && b.2.1.val == "N" && b.2.2.val == "B") = true := by
    revert r
    decide +kernel
  have frozen : s.frozen = [0, 1, 2] := by decide +kernel
  have bound : (s.providers.lookup "P").isSome = true := by decide +kernel
  have succeeds : (step s (.intern "P" "d")).1.verdict?.any (fun v => v.1.isNone) = true := by decide +kernel
  obtain ⟨d, hd, hd'⟩ := register_of_any (built "d" (by simp))
  obtain ⟨e, he, he'⟩ := register_of_any (built "e" (by simp))
  simp only [Bool.and_eq_true, beq_iff_eq, Option.any_eq_true, Prod.exists] at hd' he'
  obtain ⟨hdid, bd, dns, dname, hdb, ⟨rfl, hdns⟩, hdname⟩ := hd'
  obtain ⟨heid, be, ens, ename, heb, ⟨rfl, hens⟩, hename⟩ := he'
  obtain ⟨⟨_, _, hdb⟩, hdm, hda⟩ := Definition.items_of_soleBase hdb
  obtain ⟨⟨_, _, heb⟩, hem, hea⟩ := Definition.items_of_soleBase heb
  obtain ⟨q, hq⟩ := Option.isSome_iff_exists.mp bound
  obtain ⟨⟨o, n⟩, ok, calm⟩ := (Option.any_eq_true ..).mp succeeds
  obtain rfl : o = none := Option.isNone_iff_eq_none.mp calm
  obtain ⟨σ, good, -⟩ : ∃ σ, s.Good σ ∧ s.hasher = .colliding := start_good .colliding ⟨false, 0⟩ _
  have other : t.register? "e" = s.register? "e" := step_register_other good (by simp [Step.targets])
  obtain ⟨d', q', collects, -, -, again, rejoins⟩ := members_shared .colliding ⟨false, 0⟩ _ [] hq hd ok (by simp)
  have before : (start .colliding ⟨false, 0⟩).after [.bind "d" (.definition recipe), .bind "e" (.definition recipe)] =
    s := rfl
  have after' : (step s (.intern "P" "d")).2.2.after [] = t := rfl
  rw [before] at collects again rejoins
  rw [after'] at again rejoins
  have fresh : t.frozen = [0, 1, 2] := collects.frozen.trans frozen
  have result : t.register? "d" = some (.definition d') := collects.result
  have clear (l : Item) (hl : l ∈ (Item.definition e).lists) (a : Item) (ha : Item.Within a l) :
      ¬ a.FrozenIn t.frozen := by
    rw [fresh]
    simp only [Item.lists_definition, List.mem_cons, List.not_mem_nil, or_false] at hl
    rcases hl with rfl | rfl | rfl
    · rw [← Item.mem_preorder] at ha
      simp only [Item.preorder_eq, Item.parts_list, Item.parts_entity, Item.parts_text, Kind.parts, TypeRef.parts, heb,
        List.map_cons, List.map_nil, List.flatMap_cons, List.flatMap_nil, List.append_nil, List.mem_append, List.mem_cons,
        List.not_mem_nil, or_false] at ha
      rcases ha with rfl | rfl | rfl | rfl | rfl <;> simp [Item.FrozenIn, Item.label?]
    · exact not_frozenIn_empty ha hem
    · exact not_frozenIn_empty ha hea
  have equal : (Item.definition e).lists.map Item.bare = (Item.definition d).lists.map Item.bare := by
    simp [EntityList.bare, Handle.bare, Kind.bare, TypeRef.bare, Text.bare, hdb, heb, hdm, hem, hda, hea, hdns, hens,
      hdname, hename]
  obtain ⟨e', -, -, collects', -, -, -, lists⟩ := rejoins "e" _ (other.trans he) (by simp [fresh, heid])
    (equal.trans (Definition.lists_bare collects.value).symm) fun l hl a ha hz => absurd hz (clear l hl a ha)
  exact ⟨d', e', result, (again "d" result).1, collects'.result,
    by simp [collects.object, collects'.object, hdid, heid], lists⟩

theorem members_refused_frozen :
    let recipe : DefinitionRecipe := ⟨"N", "D", .classType, .unstated, [], [], [], ⟨none, ⟨0, 0⟩, ⟨0, 0⟩⟩⟩
    let s := (start .colliding ⟨false, 0⟩).after [.bind "d" (.definition recipe), .bind "e" (.definition recipe),
      .freeze "e"]
    let t := (step s (.intern "P" "d")).2.2
    ∃ d e q n n', (step s (.intern "P" "d")).1.verdict? = some (none, n) ∧ t.register? "d" = some (.definition d) ∧
      t.register? "e" = some (.definition e) ∧ d.id ≠ e.id ∧ t.providers.lookup "P" = some q ∧
      (Item.definition e).lists.map Item.bare = (Item.definition d).lists.map Item.bare ∧
      (∀ l ∈ (Item.definition e).lists, ∀ a, Item.Within a l → a.FrozenIn t.frozen → q.Canonical .colliding a) ∧
      (step t (.intern "P" "e")).1.verdict? = some (some (.preparedAfterFreeze Definition.kindName), n') := by
  intro recipe s t
  have built (r : String) (hr : r ∈ ["d", "e"]) : ((s.register? r).bind Item.definition?).any (fun d =>
      d.id == (if r = "d" then 6 else 10) && d.val.bases.items.isEmpty && d.val.methods.items.isEmpty &&
        d.val.attributes.items.isEmpty) = true := by
    revert r
    decide +kernel
  have bound : (s.providers.lookup "P").isSome = true := by decide +kernel
  have succeeds : (step s (.intern "P" "d")).1.verdict?.any (fun v => v.1.isNone) = true := by decide +kernel
  have fails : (step t (.intern "P" "e")).1.verdict?.any
      (fun v => v.1 == some (.preparedAfterFreeze Definition.kindName)) = true := by decide +kernel
  obtain ⟨d, hd, hd'⟩ := register_of_any (built "d" (by simp))
  obtain ⟨e, he, he'⟩ := register_of_any (built "e" (by simp))
  simp only [Bool.and_eq_true, beq_iff_eq, List.isEmpty_iff] at hd' he'
  obtain ⟨⟨⟨hdid, hdb⟩, hdm⟩, hda⟩ := hd'
  obtain ⟨⟨⟨heid, heb⟩, hem⟩, hea⟩ := he'
  obtain ⟨q, hq⟩ := Option.isSome_iff_exists.mp bound
  obtain ⟨⟨o, n⟩, ok, calm⟩ := (Option.any_eq_true ..).mp succeeds
  obtain rfl : o = none := Option.isNone_iff_eq_none.mp calm
  obtain ⟨⟨o, n'⟩, refused, error⟩ := (Option.any_eq_true ..).mp fails
  obtain rfl : o = some (.preparedAfterFreeze Definition.kindName) := eq_of_beq error
  obtain ⟨σ, good, -⟩ : ∃ σ, s.Good σ ∧ s.hasher = .colliding := start_good .colliding ⟨false, 0⟩ _
  have other : t.register? "e" = s.register? "e" := step_register_other good (by simp [Step.targets])
  obtain ⟨d', q', collects, hq', -⟩ := good.collects hq hd ok
  have equal : (Item.definition e).lists.map Item.bare = (Item.definition d).lists.map Item.bare := by
    simp [EntityList.bare, hdb, heb, hdm, hem, hda, hea]
  refine ⟨d', e, q', n, n', ok, collects.result, other.trans he, by simp [collects.object, hdid, heid], hq',
    equal.trans (Definition.lists_bare collects.value).symm, fun l hl a ha hz => ?_, refused⟩
  simp only [Item.lists_definition, List.mem_cons, List.not_mem_nil, or_false] at hl
  rcases hl with rfl | rfl | rfl
  · exact absurd hz (not_frozenIn_empty ha heb)
  · exact absurd hz (not_frozenIn_empty ha hem)
  · exact absurd hz (not_frozenIn_empty ha hea)

end Session

end CodeModel
