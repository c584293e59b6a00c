import CodeModel.Proofs.Graph.Twins
import CodeModel.Proofs.Session.History
import CodeModel.Proofs.Session.Unsealed

namespace CodeModel.Session

open Builder

variable {σ : Store} {s t : Session} {p r : String} {i : Item} {w : Work} {k : Kind} {x : Handle k.Carrier} {α : Type}

namespace Full

lemma put (hs : s.Full) (hi : i.Full) (r : String) : (s.put r i).Full where
  register b hb := by
    rcases mem_of_mem_assign hb with rfl | hb
    · exact hi
    · exact hs.register b hb
  provider := hs.provider

lemma without (hs : s.Full) (r : String) : (s.without r).Full where
  register b hb := hs.register b (mem_unassign.mp hb).1
  provider := hs.provider

lemma withProvider {q : Provider} (hs : s.Full) (hq : q.Full) (p : String) :
    ({ s with providers := assign p q s.providers } : Session).Full where
  register := hs.register
  provider b hb := by
    rcases mem_of_mem_assign hb with rfl | hb
    · exact hq
    · exact hs.provider b hb

lemma putPool (hs : s.Full) (p : String) (c : TextPool) : (s.putPool p c).Full := by
  unfold Session.putPool
  split
  · exact ⟨hs.register, hs.provider⟩
  split
  next q hq =>
    have held := hs.provider _ (mem_of_lookup hq)
    exact hs.withProvider (q := { q with pool := c }) ⟨held.entry, held.record⟩ p
  next => exact hs

lemma built {is : List Item} {free : List Nat} (hs : s.Full) (h : Hand σ s is free t) : t.Full := by
  obtain ⟨τ, -, hb, -⟩ := h
  rw [hb.same]
  exact ⟨hs.register, hs.provider⟩

end Full

lemma reads_fills {act : Builder α} (h : Reads act) : act.Fills fun _ => True :=
  (reads_makes h).imp fun _ _ ht => ⟨ht, trivial⟩

lemma assignItem_fills (hi : i.Full) (r : String) : (assignItem r i).Fills fun _ => True :=
  .modify fun _ hs => ⟨hs.put hi r, trivial⟩

lemma interning_fills {act : Setting → Interning α} {item : α → Item} (h : ∀ st, (act st).Fills item) :
    (interning p act).Fills fun a => (item a.1).Full := by
  intro s hs a t hrun
  obtain ⟨q, hq, ha, -, rfl⟩ := interning_makes p act s rfl a t hrun
  obtain ⟨provider, result⟩ := h s.setting (s.work q) (hs.provider _ (mem_of_lookup hq))
  refine ⟨⟨hs.register, (hs.withProvider provider p).provider⟩, ?_⟩
  simpa only [ha] using result

section Steps

lemma statsOf_fills : (statsOf p).Fills fun _ => True := reads_fills ((reads_provider p).bind fun _ => reads_pure _)

lemma intern_fills (p r : String) : (intern p r).Fills fun _ => True := by
  refine .get_bind fun u => (register_fills r).bind fun i hi => ?_
  have answers {item : Item} (hitem : item.Full) (answer : Stats → Answer) : Builder.Fills (do
      assignItem r item
      return answer (← statsOf p)) fun _ => True :=
    (assignItem_fills hitem r).bind fun _ _ => statsOf_fills.bind fun _ _ => .pure trivial
  cases i with
  | nothing => exact statsOf_fills.bind fun _ _ => .pure trivial
  | text t => exact (interning_fills fun st => poolText_fills t).bind fun a ha => answers ha _
  | entity k x => exact (interning_fills fun st => fillable st (.entity k x) hi _).bind fun a ha => answers ha _
  | list k l => exact (interning_fills fun st => fillable st (.list k l) hi).bind fun a ha => answers ha _
  | definition d => exact (interning_fills fun st => internMembers_fills d hi).bind fun a ha => answers ha _

lemma internOptional_fills (p r : String) : (internOptional p r).Fills fun _ => True := by
  refine (register_fills r).bind fun i _ => ?_
  cases i with
  | nothing | entity => exact intern_fills p r
  | _ => exact .failure

lemma take_fills (source : ItemSource) : source.take.Fills Item.Full := by
  cases source with
  | recipe r => exact r.build_fills
  | register name =>
    refine (register_fills name).bind fun i hi => ?_
    exact .modify_bind (fun s hs => hs.without name) fun _ => .pure hi

lemma internObject_fills (p : String) (source : ItemSource) (target : String) :
    (internObject p source target).Fills fun _ => True := by
  refine (take_fills source).bind fun i hi => ?_
  cases i with
  | entity k x =>
    refine .get_bind fun u => ?_
    dsimp only
    split
    · exact .pure trivial
    · refine (interning_fills fun st => fillable st (.entity k x) hi _).bind fun ⟨y, e⟩ hy => ?_
      cases e with
      | some e => exact statsOf_fills.bind fun _ _ => .pure trivial
      | none => exact (assignItem_fills hy target).bind fun _ _ => statsOf_fills.bind fun _ _ => .pure trivial
  | _ => exact .failure

lemma prepare_fills (p r : String) : (prepare p r).Fills fun _ => True := by
  refine (register_fills r).bind fun i hi => ?_
  cases i with
  | entity k x =>
    refine .get_bind fun u => ?_
    dsimp only
    split
    · refine (interning_fills fun st => prepareInPlace_fills _ hi).bind fun ⟨y, e⟩ hy => ?_
      exact (assignItem_fills hy r).bind fun _ _ => statsOf_fills.bind fun _ _ => .pure trivial
    · exact .pure trivial
  | _ => exact .failure

lemma change_fills (r : String) (c : ChangeRecipe) (answer : Item → Answer) : (change r c answer).Fills fun _ => True := by
  have changes {α : Type} {item : Handle α → Item} {frozen : Frozen} {name : String} {x : Handle α} {v : α}
      (h : (item ⟨x.id, v⟩).Full) :
      (changed r ((guarded frozen name x v).map item) answer).Fills fun _ => True := by
    cases hy : guarded frozen name x v with
    | error e => exact .pure trivial
    | ok y =>
      obtain ⟨-, rfl⟩ := guarded_ok hy
      exact (assignItem_fills h r).bind fun _ _ => .pure trivial
  refine (register_fills r).bind fun i hi => ?_
  cases i with
  | nothing | text | list => exact .failure
  | entity k x =>
    refine (c.forKind_fills k).bind fun e he => (objectLabels_fills 1).bind fun storage _ => ?_
    refine .get_bind fun u => ?_
    split
    · exact changes (Item.full_entity.mpr ((k.change_parts x.val e).full (Item.full_entity.mp hi) he))
    · exact .pure trivial
  | definition d =>
    refine c.forDefinition_fills.bind fun e he => (objectLabels_fills 1).bind fun storage _ => ?_
    refine .get_bind fun u => ?_
    exact changes (Item.full_definition.mpr ((d.val.change_parts e).full (Item.full_definition.mp hi) he))

lemma edit_fills (r : String) (c : ChangeRecipe) : (edit r c).Fills fun _ => True := by
  refine .get_bind fun u => ?_
  cases u.obstacle? r with
  | some refusal => exact .pure trivial
  | none => exact change_fills r c _

lemma get_fills (r : String) (path : List Segment) (target : String) :
    (run (.get r path target)).Fills fun _ => True := by
  refine (register_fills r).bind fun i hi => ?_
  cases hj : i.follow? path with
  | none => exact .pure trivial
  | some j =>
    refine (Item.share_fills (hi.within (Item.within_follow? hj))).bind fun j' hj' => ?_
    exact (assignItem_fills hj' target).bind fun _ _ => .pure trivial

lemma copyUnfrozen_fills (r target : String) : (run (.copyUnfrozen r target)).Fills fun _ => True := by
  refine (register_fills r).bind fun i hi => ?_
  cases i with
  | entity k x =>
    refine (objectLabels_fills 2).bind fun storage _ => ?_
    have parts : ∀ p ∈ k.parts (k.copy storage x.val), p.Full := fun p hp => by
      obtain ⟨j, hj, copies⟩ := exists_of_mem (k.copy_parts storage x.val).flip hp
      exact Item.full_copies copies (Item.full_entity.mp hi j hj)
    exact (place_fills parts).bind fun y hy => (assignItem_fills hy target).bind fun _ _ => .pure trivial
  | _ => exact .failure

lemma freeze_fills (r : String) : (run (.freeze r)).Fills fun _ => True := by
  have answers (id : Nat) : Builder.Fills (do return Answer.frozen ((← get).frozen.contains id)) fun _ => True :=
    .get_bind fun _ => .pure trivial
  have marks (f : Frozen → Frozen) : Builder.Fills (modify fun s : Session => { s with frozen := f s.frozen })
      fun _ => True := .modify fun s hs => ⟨⟨hs.register, hs.provider⟩, trivial⟩
  refine (register_fills r).bind fun i _ => ?_
  cases i with
  | entity k x => exact (marks _).bind fun _ _ => answers x.id
  | definition d =>
    refine .get_bind fun u => ?_
    cases u.frozen.contains d.id with
    | true => exact (marks _).bind fun _ _ => answers d.id
    | false =>
      refine .modify_bind (fun s hs => ⟨hs.register, hs.provider⟩) fun _ => ?_
      exact (marks _).bind fun _ _ => answers d.id
  | _ => exact .failure

lemma drop_fills (rs : List String) : (run (.drop rs)).Fills fun _ => True :=
  .modify_bind (fun _ hs => dropped_of_without (fun _ r _ ht => ht.without r) hs) fun _ => .pure trivial

lemma dropProvider_fills (p : String) : (run (.dropProvider p)).Fills fun _ => True := by
  refine .modify_bind (fun s hs => ⟨hs.register, fun b hb => ?_⟩) fun _ => .pure trivial
  exact hs.provider b (mem_unassign.mp hb).1

lemma addProvider_full (hs : s.Full) (p : String) (options : Options) : (s.addProvider p options).Full :=
  ⟨hs.register, (hs.withProvider (Provider.create_full s.hasher s.nextProvider s.nextText options) p).provider⟩

lemma newProvider_fills (p : String) (options : Options) : (run (.newProvider p options)).Fills fun _ => True := by
  refine .modify_bind (fun s hs => addProvider_full hs p options) fun _ => ?_
  exact (reads_fills (reads_provider p)).bind fun _ _ => .pure trivial

lemma internString_fills (p v target : String) : (run (.internString p v target)).Fills fun _ => True := by
  refine (text_fills v).bind fun t _ => (interning_fills fun st => poolText_fills t).bind fun a ha => ?_
  exact (assignItem_fills ha target).bind fun _ _ => (reads_fills (reads_provider p)).bind fun _ _ => .pure trivial

lemma keep_fills (target : Option String) (o : Option Text) : (pool.keep target o).Fills fun _ => True := by
  unfold pool.keep
  split
  · exact .modify_bind (fun s hs => hs.put (Item.full_text _) _) fun _ => .pure trivial
  · exact .pure trivial

lemma pool_full (hg : s.Good σ) (hs : s.Full) (p : String) (action : PoolAction) (target : Option String) :
    (run (.pool p action target)).Makes (· = s) fun _ t => t.Full := by
  refine pool_makes (act_makes hg · action) (fun c o t _ ht => ?_) fun o => (keep_fills target o).imp fun _ _ ht => ht.1
  obtain ⟨is, hand, -⟩ := ht
  exact (hs.built hand).putPool p o.2

end Steps

theorem run_full (hg : s.Good σ) (hs : s.Full) (st : Step) : (run st).Makes (· = s) fun _ t => t.Full := by
  cases hst : st.asks with
  | true => exact (reads_fills (run_reads st hst)).makes hs
  | false =>
    cases st with
    | bind target r =>
      have binds : (run (.bind target r)).Fills fun _ => True :=
        r.build_fills.bind fun i hi => (assignItem_fills hi target).bind fun _ _ => .pure trivial
      exact binds.makes hs
    | drop rs => exact (drop_fills rs).makes hs
    | dropProvider p => exact (dropProvider_fills p).makes hs
    | newPool target =>
      have adds : (run (.newPool target)).Fills fun _ => True :=
        .modify_bind (fun s hs => ⟨hs.register, hs.provider⟩) fun _ => .pure trivial
      exact adds.makes hs
    | newProvider target options => exact (newProvider_fills target options).makes hs
    | set r c => exact (change_fills r c _).makes hs
    | edit r c => exact (edit_fills r c).makes hs
    | get r path target => exact (get_fills r path target).makes hs
    | copyUnfrozen r target => exact (copyUnfrozen_fills r target).makes hs
    | freeze r => exact (freeze_fills r).makes hs
    | intern p r => exact (intern_fills p r).makes hs
    | internOptional p r => exact (internOptional_fills p r).makes hs
    | internObject p source target => exact (internObject_fills p source target).makes hs
    | prepare p r => exact (prepare_fills p r).makes hs
    | internString p v target => exact (internString_fills p v target).makes hs
    | pool name action target => exact pool_full hg hs name action target
    | _ => simp [Step.asks] at hst

theorem step_full (hg : s.Good σ) (hs : s.Full) (st : Step) : (step s st).2.2.Full := by
  cases hrun : (run st).run { s with events := [] } with
  | none =>
    simp only [step, hrun]
    exact ⟨hs.register, hs.provider⟩
  | some o =>
    simp only [step, hrun]
    exact run_full (hg.withEvents []) ⟨hs.register, hs.provider⟩ st _ rfl o.1 o.2 hrun

theorem after_full (hg : s.Good σ) (hs : s.Full) (steps : List Step) : (s.after steps).Full := by
  induction steps generalizing s σ with
  | nil => exact hs
  | cons st steps ih =>
    obtain ⟨τ, good, -⟩ := step_reaches hg st
    exact ih good (step_full hg hs st)

lemma start_full (hasher : Hasher) (options : Options) : (start hasher options).Full :=
  addProvider_full (s := initial hasher) ⟨by simp [initial], by simp [initial]⟩ "P" options

end CodeModel.Session
