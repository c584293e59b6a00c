import CodeModel.Proofs.Session.Later

/-! The steps that change registers, providers and pools but intern nothing. -/

namespace CodeModel

open Session Builder

variable {σ τ : Store} {s t : Session} {is : List Item} {free : List Nat}

namespace Item

lemma within_nth {k : Kind} {l : EntityList k.Carrier} {n : Nat} {i j : Item} (hl : Within (.list k l) i)
    (h : nth? k l n = some j) : Within j i := by
  obtain ⟨x, hx, rfl⟩ := Option.map_eq_some_iff.mp h
  exact .trans (.part (p := .entity k x) (by simpa using List.mem_of_getElem? hx) (.refl _)) hl

lemma within_parts {i j : Item} (h : j ∈ i.parts) : Within j i := .part h (.refl j)

lemma within_part? {i j : Item} {seg : Segment} (h : i.part? seg = some j) : Within j i := by
  cases i with
  | nothing | text | list => simp [part?] at h
  | definition d =>
    cases seg with
    | base n => exact within_nth (within_parts (by simp [Definition.parts])) h
    | method n => exact within_nth (within_parts (by simp [Definition.parts])) h
    | attr n => exact within_nth (within_parts (by simp [Definition.parts])) h
    | _ => simp [part?, Definition.part?] at h
  | entity k x =>
    obtain ⟨id, v⟩ := x
    cases k with
    | probe => simp [part?] at h
    | typeRef =>
      cases v <;> cases seg <;> simp [part?, TypeRef.part?, TypeRef.element?] at h
      case named.arg => exact within_nth (within_parts (by simp [Kind.parts, TypeRef.parts])) h
      all_goals exact within_parts (by simp [← h, Kind.parts, TypeRef.parts])
    | constant =>
      cases seg <;> simp only [part?, Constant.part?, Option.some.injEq, reduceCtorEq] at h
      · exact within_parts (by simp [← h, Kind.parts, Constant.parts])
      · split at h
        · rename_i t hl
          exact within_parts (by simp_all [Kind.parts, Constant.parts, Literal.part])
        · simp at h
    | attr =>
      cases seg <;>
        simp only [part?, Attribute.part?, Option.some.injEq, Option.map_eq_some_iff, reduceCtorEq] at h
      · exact within_parts (by simp [← h, Kind.parts, Attribute.parts])
      · exact within_nth (within_parts (by simp [Kind.parts, Attribute.parts])) h
      · obtain ⟨n, hn, rfl⟩ := h
        have := List.mem_of_getElem? hn
        refine within_parts ?_
        simp only [parts_entity, Kind.parts, Attribute.parts, List.mem_append, List.mem_flatMap]
        exact .inl (.inr ⟨n, this, by simp [NamedArgument.parts]⟩)
    | parameter =>
      cases seg <;>
        simp only [part?, Parameter.part?, Option.some.injEq, Option.map_eq_some_iff, reduceCtorEq] at h
      · exact within_parts (by simp [← h, Kind.parts, Parameter.parts])
      · obtain ⟨c, hc, rfl⟩ := h
        exact within_parts (by simp [Kind.parts, Parameter.parts, hc])
      · exact within_nth (within_parts (by simp [Kind.parts, Parameter.parts])) h
    | method =>
      cases seg <;> simp only [part?, Method.part?, Option.some.injEq, Option.map_eq_some_iff, reduceCtorEq] at h
      · exact within_nth (within_parts (by simp [Kind.parts, Method.parts])) h
      · exact within_parts (by simp [← h, Kind.parts, Method.parts])
      · exact within_nth (within_parts (by simp [Kind.parts, Method.parts])) h
      · exact within_parts (by simp [← h, Kind.parts, Method.parts])
      · obtain ⟨t, ht, rfl⟩ := h
        have := List.mem_of_getElem? ht
        exact within_parts (by simp [Kind.parts, Method.parts, this])

theorem within_follow? {i j : Item} {path : List Segment} (h : i.follow? path = some j) : Within j i := by
  induction path generalizing i with
  | nil =>
    obtain rfl : i = j := by simpa [follow?] using h
    exact .refl i
  | cons seg path ih =>
    obtain ⟨l, hl, hj⟩ := Option.bind_eq_some_iff.mp h
    exact (ih hj).trans (within_part? hl)

end Item

namespace Session

lemma bind_moves (target : String) (r : ItemRecipe) : Moves (run (.bind target r)) := by
  apply moves_of_hand
  intro σ s hg
  refine r.build_makes.bind fun i => .given fun hd => ?_
  exact .bind (.modify fun t ht => ht.put hg hd) fun _ => .pure fun t ht => ht

lemma Reaches.without (h : Reaches σ s t) (r : String) : Reaches σ s (t.without r) := by
  obtain ⟨τ, hg, hl⟩ := h
  exact ⟨τ, hg.without r, { hl with }⟩

lemma dropped_of_without {P : Session → Prop} {rs : List String} (h : ∀ t, ∀ r ∈ rs, P t → P (t.without r)) (hs : P s) :
    P { s with registers := rs.foldl (fun bs r => unassign r bs) s.registers } := by
  induction rs generalizing s with
  | nil => exact hs
  | cons r rs ih =>
    simp only [List.mem_cons, forall_eq_or_imp] at h
    exact ih (fun t => (h t).2) ((h s).1 hs)

lemma drop_moves (rs : List String) : Moves (run (.drop rs)) := by
  intro σ s hg
  refine .bind (Q := fun _ t => Reaches σ s t) (.modify fun t ht => ?_) fun _ => .pure fun t ht => ht
  rw [ht]
  exact dropped_of_without (fun t r _ h => h.without r) (reaches_refl hg)

lemma dropProvider_moves (p : String) : Moves (run (.dropProvider p)) := by
  intro σ s hg
  refine .bind (Q := fun _ t => Reaches σ s t) (.modify fun t ht => ?_) fun _ => .pure fun t ht => ht
  rw [ht]
  have old (c : String × Provider) (hc : c ∈ unassign p s.providers) : c ∈ s.providers := (mem_unassign.mp hc).1
  refine ⟨σ, { hg with
    providers := fun c hc => hg.providers c (old c hc)
    sound := fun c hc => hg.sound c (old c hc)
    namedOnce := hg.namedOnce.unassign
    numbered := fun c hc => hg.numbered c (old c hc)
    numberedOnce := fun b hb c hc => hg.numberedOnce b (old b hb) c (old c hc) }, { Later.refl σ s with
    providers := fun c hc => .inl ⟨c, old c hc, .refl s.hasher c.2⟩ }⟩

lemma newPool_moves (target : String) : Moves (run (.newPool target)) := by
  intro σ s hg
  refine .bind (Q := fun _ t => Reaches σ s t) (.modify fun t ht => ?_) fun _ => .pure fun t ht => ht
  rw [ht]
  refine ⟨σ, { hg with pools := fun b hb a t ht => ?_ }, { Later.refl σ s with }⟩
  rcases mem_of_mem_assign hb with rfl | hb
  · rw [TextPool.find?_empty s.hasher ht]
    exact hg.empty
  · exact hg.pools b hb a t ht

lemma get_moves (r : String) (path : List Segment) (target : String) : Moves (run (.get r path target)) := by
  apply moves_of_hand
  intro σ s hg
  refine (register_makes r).bind fun i => .given fun _ => ?_
  cases hj : i.follow? path with
  | none => exact .pure fun t ht => ht.reaches hg
  | some j =>
    simp only
    refine .weaken ((j.share_makes (by simp)).bind fun j' => .given fun hd => ?_) fun t ht =>
      ht.within (by simp) (Item.within_follow? hj)
    exact .bind (.modify fun t ht => ht.put hg fun d h => absurd h (hd d)) fun _ => .pure fun t ht => ht

lemma copyUnfrozen_moves (r target : String) : Moves (run (.copyUnfrozen r target)) := by
  apply moves_of_hand
  intro σ s hg
  refine (register_makes r).bind fun i => .given fun _ => ?_
  cases i with
  | entity k x =>
    refine (objectLabels_makes 2).bind fun storage => .weaken (P := Hand σ s
      (k.parts (k.copy storage x.val) ++ [.entity k x]) []) ?_ fun t ht => ht.copyParts (by simp)
    refine (place_makes (k := k) (by simp +contextual)).bind fun y => ?_
    exact .bind (.modify fun t ht => ht.put hg (by simp)) fun _ => .pure fun t ht => ht
  | _ => exact .failure

def Holding (σ : Store) (s : Session) (i : Item) (t : Session) : Prop :=
  ∃ τ, t.Good τ ∧ Later σ s τ t ∧ τ.Fits i

variable {i : Item}

lemma Hand.holding (hg : s.Good σ) (h : Hand σ s is free t) (hi : i ∈ is) : Holding σ s i t := by
  obtain ⟨τ, hg', hb, hf, -⟩ := h
  exact ⟨τ, hg', hb.later hg, hf i hi⟩

lemma Holding.emit (h : Holding σ s i t) (e : Event) : Holding σ s i (t.emit e) := by
  obtain ⟨τ, hg, hl, hi⟩ := h
  exact ⟨τ, hg.withEvents _, { hl with }, hi⟩

lemma Holding.freeze (h : Holding σ s i t) : Reaches σ s { t with frozen := i.mark t.frozen } := by
  obtain ⟨τ, hg, hl, hi⟩ := h
  have grows := (i.marked hereditary_isModel t.frozen hi hg.closed).grows
  exact ⟨τ, hg.freeze hi, { hl with frozen := fun id hid => grows id (hl.frozen id hid) }⟩

lemma freeze_moves (r : String) : Moves (run (.freeze r)) := by
  apply moves_of_hand
  intro σ s hg
  refine (register_makes r).bind fun i => .given fun _ => ?_
  have answer (id : Nat) : Builder.Makes (do return Answer.frozen ((← get).frozen.contains id)) (Reaches σ s)
      (fun _ t => Reaches σ s t) :=
    .bind (.get fun t ht => ht) fun u => .pure fun t ht => ht
  refine .weaken (P := Holding σ s i) ?_ fun t ht => ht.holding hg (by simp)
  cases i with
  | entity k x => exact .bind (.modify fun t ht => ht.freeze) fun _ => answer x.id
  | definition d =>
    have marked : Builder.Makes (do
        modify fun s : Session => { s with frozen := Definition.mark d s.frozen }
        return Answer.frozen ((← get).frozen.contains d.id)) (Holding σ s (.definition d))
        (fun _ t => Reaches σ s t) :=
      .bind (.modify fun t ht => ht.freeze) fun _ => answer d.id
    refine .bind (Q := fun _ => Holding σ s (.definition d)) (.get fun t ht => ht) fun u => ?_
    cases u.frozen.contains d.id with
    | true => exact marked
    | false => exact .bind (.modify fun t ht => ht.emit _) fun _ => marked
  | _ => exact .failure

def ReachesAt (σ : Store) (a : Nat) (s t : Session) : Prop :=
  ∃ τ, t.Good τ ∧ Later σ s τ t ∧ ∀ id < s.nextObject, id ≠ a → τ.object id = σ.object id

lemma ReachesAt.reaches {a : Nat} (h : ReachesAt σ a s t) : Reaches σ s t := by
  obtain ⟨τ, good, later, -⟩ := h
  exact ⟨τ, good, later⟩

theorem Hand.replace {r : String} {i j : Item} {a : Nat} (hg : s.Good σ) (h : Hand σ s is free t)
    (hi : s.register? r = some i) (ha : i.label? = some a) (hj : j.label? = some a) (hparts : ∀ p ∈ j.parts, p ∈ is)
    (hrank : ∀ p ∈ j.parts, p.rank < i.rank) (hd : ∀ d, j = .definition d → ∃ e, i = .definition e)
    (hsole : ¬ (t.without r).Keeps none a) (hz : a ∉ t.frozen) : ReachesAt σ a s (t.put r j) := by
  obtain ⟨τ, hg', hb, hf, -⟩ := h
  have held : (r, i) ∈ t.registers := by
    rw [hb.registers]
    exact mem_of_lookup hi
  have known : τ.object a = some i := (hg'.registers _ held).object (.refl i) ha
  have above (p : Item) (hp : p ∈ j.parts) : ¬ p.Labels a := by
    rintro ⟨l, hl, hla⟩
    have same : i = l := by simpa [known] using (hf p (hparts p hp)).object hl hla
    have := Item.rank_within hl
    have := hrank p hp
    rw [same] at this
    omega
  have other (id : Nat) (hk : (t.without r).Keeps none id ∨ id ∈ t.frozen) :
      (τ.put a j).object id = τ.object id := by
    refine Store.put_other ?_
    rintro rfl
    rcases hk with hk | hk
    · exact hsole hk
    · exact hz hk
  have bounded (id : Nat) (l : Item) (hl : (τ.put a j).object id = some l) : id < t.nextObject := by
    by_cases he : id = a
    · exact he ▸ hg'.object a i known
    · exact hg'.object id l (by rwa [Store.put_other he] at hl)
  have fits : (τ.put a j).Fits j := by
    refine Store.fits_iff.mpr ⟨?_, fun p hp => (hf p (hparts p hp)).put (above p hp)⟩
    cases j <;> simp_all [Item.label?, Store.Knows]
  have good : (t.without r).Good (τ.put a j) :=
    (hg'.without r).store (Store.put_extends τ a j) other le_rfl bounded hg'.list hg'.text
  have later := hb.later hg
  refine ⟨τ.put a j, good.put hg'.boundOnce fits fun d hjd b hbt hne e he hid => ?_,
    { later with
      extends' := later.extends'.trans (Store.put_extends τ a j)
      kept := fun id hid => (other id (.inr (later.frozen id hid))).trans (later.kept id hid) },
    fun id hid hne => (Store.put_other hne).trans (hb.object id hid)⟩
  obtain ⟨c, rfl⟩ := hd d hjd
  have hcd : c.id = d.id := by
    rw [hjd] at hj
    simpa [Item.label?] using ha.trans hj.symm
  exact hne (congrArg Prod.fst (hg'.ownedOnce b hbt _ held e c he rfl (hid ▸ hcd.symm)))

lemma Hand.change {storage : Nat} {ps cs js : List Item} (h : Hand σ s is (storage :: free) t)
    (hc : PartsChange storage ps cs js) (hp : ∀ p ∈ ps, p ∈ is) (hcs : ∀ p ∈ cs, p ∈ is) : Hand σ s js free t := by
  obtain ⟨k, items, hitems, hjs⟩ := hc
  have deep : Hand σ s (is.flatMap Item.parts ++ is) (storage :: free) t := by
    obtain ⟨τ, hg, hb, hf, hfree⟩ := h
    refine ⟨τ, hg, hb, fun i hi => ?_, hfree⟩
    rcases List.mem_append.mp hi with hi | hi
    · obtain ⟨j, hj, hi⟩ := List.mem_flatMap.mp hi
      exact (hf j hj).part hi
    · exact hf i hi
  refine (deep.list k items fun x hx => ?_).imp fun p hpj => ?_
  · rcases hitems x hx with hx | ⟨l, hl, hx⟩
    · exact List.mem_append_right _ (hcs _ hx)
    · exact List.mem_append_left _ (List.mem_flatMap.mpr ⟨_, hp _ hl, List.mem_map_of_mem hx⟩)
  · rcases hjs p hpj with hpj | hpj | rfl
    · exact List.mem_cons_of_mem _ (List.mem_append_right _ (hp p hpj))
    · exact List.mem_cons_of_mem _ (List.mem_append_right _ (hcs p hpj))
    · exact List.mem_cons_self

lemma guarded_eq {α : Type} (frozen : Frozen) (name : String) (x : Handle α) (v : α) :
    guarded frozen name x v = if x.id ∈ frozen then .error (.frozenMutation name) else .ok ⟨x.id, v⟩ := by
  by_cases hz : x.id ∈ frozen <;>
  · simp [guarded, Frozen.state, hz, FreezeState.checkMutable, FreezeState.isFrozen]
    rfl

lemma guarded_ok {α : Type} {frozen : Frozen} {name : String} {x y : Handle α} {v : α}
    (h : guarded frozen name x v = .ok y) : x.id ∉ frozen ∧ y = ⟨x.id, v⟩ := by
  rw [guarded_eq] at h
  split at h
  next => cases h
  next hz => exact ⟨hz, (Except.ok.inj h).symm⟩

lemma changed_makes {α : Type} {P : Session → Prop} {r : String} {o : Except ModelError (Handle α)}
    {item : Handle α → Item} {answer : Item → Answer} (he : ∀ t, P t → Reaches σ s t)
    (h : ∀ x, o = .ok x → ∀ t, P t → Reaches σ s (t.put r (item x))) :
    (changed r (o.map item) answer).Makes P (fun _ t => Reaches σ s t) := by
  cases o with
  | error e => exact .pure he
  | ok x => exact .bind (.modify fun t ht => h x rfl t ht) fun _ => .pure fun t ht => ht

lemma not_keeps_of_sole {r : String} {id : Nat} (hg : t.Good τ) (h : t.isSoleHolder r id = true) :
    ¬ (t.without r).Keeps none id := by
  intro hk
  rw [isSoleHolder_eq, ((hg.without r).heldBeside_iff none id).mpr hk] at h
  simp at h

lemma not_keeps_definition {r : String} {d : Handle Definition} (hg : t.Good τ)
    (hd : t.register? r = some (.definition d)) :
    ¬ (t.without r).Keeps none d.id := by
  have held : (r, Item.definition d) ∈ t.registers := mem_of_lookup hd
  have known : τ.object d.id = some (.definition d) := (hg.registers _ held).knows
  rintro (⟨b, hb, hl⟩ | ⟨x, hx⟩ | ⟨b, hb, -, k, x, hx, hid⟩)
  · obtain ⟨hb, hne⟩ := mem_unassign.mp hb
    obtain ⟨j, hj, -, hjk⟩ := (hg.registers b hb).object_of_labels hl
    obtain rfl : Item.definition d = j := by simpa [known] using hjk
    rcases Item.within_iff.mp hj with he | ⟨p, hp, hj⟩
    · exact hne (congrArg Prod.fst (hg.ownedOnce b hb _ held d d he.symm rfl rfl))
    · have above := Item.rank_within hj
      have below : p.rank < 6 := Item.rank_part_lt hp
      simp only [Item.rank_definition] at above
      omega
  · have := (hg.shared x).knows
    simp [Store.Knows, hx, known] at this
  · have := (hg.providers b hb _ (.entry hx)).knows
    simp [Store.Knows, hid, known] at this

lemma Hand.replace_entity {r : String} {k : Kind} {x : Handle k.Carrier} {e : k.Change} {storage : Nat} (hg : s.Good σ)
    (h : Hand σ s (k.changeParts e ++ [.entity k x]) [storage] t) (hi : s.register? r = some (.entity k x))
    (hs : t.isSoleHolder r x.id = true) (hz : x.id ∉ t.frozen) :
    ReachesAt σ x.id s (t.put r (.entity k ⟨x.id, k.change storage x.val e⟩)) := by
  obtain ⟨τ, good, -⟩ := id h
  have lower (p : Item) (hp : p ∈ k.parts (k.change storage x.val e)) : p.rank < k.rank := by
    have := k.two_le_rank e
    rcases k.rank_parts _ p hp with h | h
    · exact h
    · omega
  exact ((h.parts (i := .entity k x) (by simp)).change (k.change_parts x.val e) (by simp +contextual)
    (by simp +contextual)).replace hg hi rfl rfl (fun p hp => hp) lower (by simp) (not_keeps_of_sole good hs) hz

lemma Hand.replace_definition {r : String} {d : Handle Definition} {e : Definition.Change} {storage : Nat}
    (hg : s.Good σ) (h : Hand σ s (e.parts ++ [.definition d]) [storage] t) (hi : s.register? r = some (.definition d))
    (hz : d.id ∉ t.frozen) : ReachesAt σ d.id s (t.put r (.definition ⟨d.id, d.val.change storage e⟩)) := by
  obtain ⟨τ, good, hb, -⟩ := id h
  have own : t.register? r = some (.definition d) := by rw [← hi, register?, hb.registers, register?]
  exact ((h.parts (i := .definition d) (by simp)).change (d.val.change_parts e) (by simp +contextual)
    (by simp +contextual)).replace hg hi rfl rfl (fun p hp => hp) (fun p hp => Definition.rank_parts _ p hp) (by simp)
    (not_keeps_definition good own) hz

theorem change_moves (r : String) (c : ChangeRecipe) (answer : Item → Answer) : Moves (change r c answer) := by
  apply moves_of_hand
  intro σ s hg
  refine (register_makes r).bind fun i => .given fun hi => ?_
  cases i with
  | nothing | text | list => exact .failure
  | entity k x =>
    refine (c.forKind_makes k).bind fun e => label_makes.bind fun storage => ?_
    refine .bind (Q := fun u t => Hand σ s (k.changeParts e ++ [.entity k x]) [storage] t ∧ u = t)
      (.get fun t ht => ⟨ht, rfl⟩) fun u => ?_
    cases hs : u.isSoleHolder r x.id with
    | false =>
      simp only [Bool.false_eq_true, if_false]
      exact .pure fun t ht => ht.1.reaches hg
    | true =>
      simp only [if_true]
      apply changed_makes (fun t ht => ht.1.reaches hg)
      intro y hy t ht
      obtain ⟨hz, rfl⟩ := guarded_ok hy
      obtain ⟨ht, rfl⟩ := ht
      exact (ht.replace_entity hg hi hs hz).reaches
  | definition d =>
    refine (c.forDefinition_makes).bind fun e => label_makes.bind fun storage => ?_
    refine .bind (Q := fun u t => Hand σ s (e.parts ++ [.definition d]) [storage] t ∧ u = t)
      (.get fun t ht => ⟨ht, rfl⟩) fun u => ?_
    apply changed_makes (fun t ht => ht.1.reaches hg)
    intro y hy t ht
    obtain ⟨hz, rfl⟩ := guarded_ok hy
    obtain ⟨ht, rfl⟩ := ht
    exact (ht.replace_definition hg hi hz).reaches

lemma edit_moves (r : String) (c : ChangeRecipe) : Moves (edit r c) := by
  intro σ s hg
  refine .bind (Q := fun _ t => t = s) (.get fun t ht => ht) fun u => ?_
  cases u.obstacle? r with
  | some refusal => exact .pure fun t ht => ht.symm ▸ reaches_refl hg
  | none => exact change_moves r c _ σ s hg

theorem addProvider_reaches (hg : s.Good σ) (name : String) (options : Options) :
    Reaches σ s (s.addProvider name options) := by
  obtain ⟨τ, hg', hb, hf, -⟩ := textLabels_makes TextPool.commonTexts s (hand_start hg) _ _ rfl
  have texts (q : String × Nat) (hq : q ∈ TextPool.commonTexts.zipIdx s.nextText) : τ.Fits (.text ⟨q.2, q.1⟩) :=
    hf _ (List.mem_append_left _ (List.mem_map.mpr ⟨q, hq, rfl⟩))
  have fits := Provider.create_fits (h := s.hasher) hg'.shared hg'.empty texts s.nextProvider options
  have cases {c : String × Provider} (hc : c ∈ assign name
      (Provider.create s.hasher s.nextProvider s.nextText options) s.providers) := mem_of_mem_assign hc
  have number := Provider.create_number s.hasher s.nextProvider s.nextText options
  refine ⟨τ, { hg' with
    providers := fun c hc => ?_
    sound := fun c hc => ?_
    namedOnce := hg.namedOnce.assign
    numbered := fun c hc => ?_
    numberedOnce := fun b hb c hc he => ?_ }, { hb.later hg with
    nextProvider := Nat.le_succ _
    providers := fun c hc => ?_ }⟩
  · rcases cases hc with rfl | hc
    · exact fits
    · exact hg'.providers c hc
  · rcases cases hc with rfl | hc
    · exact Provider.create_sound _ _ _ _
    · exact hg'.sound c hc
  · rcases cases hc with rfl | hc
    · exact Nat.lt_succ_self _
    · exact (hg.numbered c hc).trans (Nat.lt_succ_self _)
  · rcases cases hb with rfl | hb <;> rcases cases hc with rfl | hc
    · rfl
    · exact absurd (hg.numbered c hc) (by rw [← he, number]; exact lt_irrefl _)
    · exact absurd (hg.numbered b hb) (by rw [he, number]; exact lt_irrefl _)
    · exact hg.numberedOnce b hb c hc he
  · rcases cases hc with rfl | hc
    · exact .inr number.ge
    · exact .inl ⟨c, hc, .refl _ _⟩

lemma newProvider_moves (target : String) (options : Options) : Moves (run (.newProvider target options)) := by
  intro σ s hg
  refine .bind (Q := fun _ t => Reaches σ s t) (.modify fun t ht => ?_) fun _ => ?_
  · rw [ht]
    exact addProvider_reaches hg target options
  · exact .bind (.bind (.get fun t ht => ht) fun u => .ofOption fun p _ t ht => ht) fun p => .pure fun t ht => ht

end Session

end CodeModel
