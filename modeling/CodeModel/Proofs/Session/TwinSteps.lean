import CodeModel.Proofs.Graph.TwinTexts
import CodeModel.Proofs.Session.Twins
import CodeModel.Session.Run

namespace CodeModel

open Session Builder

variable {d : Seeding}

section Changes

lemma ListEdit.build_alike {ι α β : Type} {R : α → β → Prop} {f : ι → Builder α} {g : ι → Builder β} (e : ListEdit ι)
    (h : ∀ a, Alike d R (f a) (g a)) : Alike d (ListEdit.Rel R) (e.build f) (e.build g) := by
  cases e with
  | push a => exact (h a).bind fun _ _ hxy => .pure (.push hxy)
  | insert n a => exact (h a).bind fun _ _ hxy => .pure (.insert n hxy)
  | put n a => exact (h a).bind fun _ _ hxy => .pure (.put n hxy)
  | remove n => exact .pure (.remove n)
  | truncate n => exact .pure (.truncate n)
  | clear => exact .pure .clear
  | reverse => exact .pure .reverse

namespace ChangeRecipe

lemma forConstant_alike (c : ChangeRecipe) : Alike d (Kind.ChangeTwin d .constant) c.forConstant c.forConstant := by
  cases c with
  | type t =>
    refine t.build_alike.bind fun _ _ htype => .pure fun _ v w hvw => ?_
    obtain ⟨-, hliteral⟩ := Constant.twin_iff.mp hvw
    exact Constant.twin_iff.mpr ⟨htype, hliteral⟩
  | literal l =>
    refine l.build_alike.bind fun _ _ hliteral => .pure fun _ v w hvw => ?_
    obtain ⟨htype, -⟩ := Constant.twin_iff.mp hvw
    exact Constant.twin_iff.mpr ⟨htype, hliteral⟩
  | _ => exact .failure

lemma forAttribute_alike (c : ChangeRecipe) : Alike d (Kind.ChangeTwin d .attr) c.forAttribute c.forAttribute := by
  cases c with
  | type t =>
    refine t.build_alike.bind fun _ _ htype => .pure fun _ v w hvw => ?_
    obtain ⟨-, rest⟩ := Attribute.twin_iff.mp hvw
    exact Attribute.twin_iff.mpr ⟨htype, rest⟩
  | positional c =>
    refine c.build_alike.bind fun _ _ hx => .pure fun storage v w hvw => ?_
    obtain ⟨htype, hpositional, rest⟩ := Attribute.twin_iff.mp hvw
    exact Attribute.twin_iff.mpr ⟨htype, hpositional.add storage hx, rest⟩
  | named n c =>
    refine (buildNamed_alike (n, c)).bind fun _ _ hn => .pure fun _ v w hvw => ?_
    obtain ⟨htype, hpositional, hnamed, hregion⟩ := Attribute.twin_iff.mp hvw
    exact Attribute.twin_iff.mpr ⟨htype, hpositional, List.rel_append hnamed (.cons hn .nil), hregion⟩
  | region r =>
    refine r.build_alike.bind fun _ _ hregion => .pure fun _ v w hvw => ?_
    obtain ⟨htype, hpositional, hnamed, -⟩ := Attribute.twin_iff.mp hvw
    exact Attribute.twin_iff.mpr ⟨htype, hpositional, hnamed, hregion⟩
  | _ => exact .failure

lemma forParameter_alike (c : ChangeRecipe) :
    Alike d (Kind.ChangeTwin d .parameter) c.forParameter c.forParameter := by
  cases c with
  | name t =>
    refine t.build_alike.bind fun _ _ hname => .pure fun _ v w hvw => ?_
    obtain ⟨-, rest⟩ := Parameter.twin_iff.mp hvw
    exact Parameter.twin_iff.mpr ⟨hname, rest⟩
  | type t =>
    refine t.build_alike.bind fun _ _ htype => .pure fun _ v w hvw => ?_
    obtain ⟨hname, -, rest⟩ := Parameter.twin_iff.mp hvw
    exact Parameter.twin_iff.mpr ⟨hname, htype, rest⟩
  | attributes edits =>
    refine (Alike.mapM edits fun e _ => e.build_alike fun a => a.build_alike).bind fun _ _ hedits =>
      .pure fun storage v w hvw => ?_
    obtain ⟨hname, htype, hattributes, rest⟩ := Parameter.twin_iff.mp hvw
    exact Parameter.twin_iff.mpr ⟨hname, htype, hattributes.edit storage hedits, rest⟩
  | default c =>
    refine (Alike.optionM c fun c => c.build_alike).bind fun _ _ hdefault => .pure fun _ v w hvw => ?_
    obtain ⟨hname, htype, hattributes, -, rest⟩ := Parameter.twin_iff.mp hvw
    exact Parameter.twin_iff.mpr ⟨hname, htype, hattributes, hdefault, rest⟩
  | region r =>
    refine r.build_alike.bind fun _ _ hregion => .pure fun _ v w hvw => ?_
    obtain ⟨hname, htype, hattributes, hdefault, -, hflags⟩ := Parameter.twin_iff.mp hvw
    exact Parameter.twin_iff.mpr ⟨hname, htype, hattributes, hdefault, hregion, hflags⟩
  | mode m on =>
    refine .pure fun _ v w hvw => ?_
    obtain ⟨hname, htype, hattributes, hdefault, hregion, hflags⟩ := Parameter.twin_iff.mp hvw
    exact Parameter.twin_iff.mpr
      ⟨hname, htype, hattributes, hdefault, hregion, congrArg (fun f => f.put m on) hflags⟩
  | _ => exact .failure

lemma forMethod_alike (c : ChangeRecipe) : Alike d (Kind.ChangeTwin d .method) c.forMethod c.forMethod := by
  cases c with
  | name t =>
    refine t.build_alike.bind fun _ _ hname => .pure fun _ v w hvw => ?_
    obtain ⟨-, rest⟩ := Method.twin_iff.mp hvw
    exact Method.twin_iff.mpr ⟨hname, rest⟩
  | returns t =>
    refine t.build_alike.bind fun _ _ hreturns => .pure fun _ v w hvw => ?_
    obtain ⟨hname, -, rest⟩ := Method.twin_iff.mp hvw
    exact Method.twin_iff.mpr ⟨hname, hreturns, rest⟩
  | parameters edits =>
    refine (Alike.mapM edits fun e _ => e.build_alike fun p => p.build_alike).bind fun _ _ hedits =>
      .pure fun storage v w hvw => ?_
    obtain ⟨hname, hreturns, hparameters, rest⟩ := Method.twin_iff.mp hvw
    exact Method.twin_iff.mpr ⟨hname, hreturns, hparameters.edit storage hedits, rest⟩
  | attributes edits =>
    refine (Alike.mapM edits fun e _ => e.build_alike fun a => a.build_alike).bind fun _ _ hedits =>
      .pure fun storage v w hvw => ?_
    obtain ⟨hname, hreturns, hparameters, hattributes, rest⟩ := Method.twin_iff.mp hvw
    exact Method.twin_iff.mpr ⟨hname, hreturns, hparameters, hattributes.edit storage hedits, rest⟩
  | typeParameter v =>
    refine (text_alike v).bind fun _ _ htext => .pure fun _ v w hvw => ?_
    obtain ⟨hname, hreturns, hparameters, hattributes, htexts, rest⟩ := Method.twin_iff.mp hvw
    exact Method.twin_iff.mpr
      ⟨hname, hreturns, hparameters, hattributes, List.rel_append htexts (.cons htext .nil), rest⟩
  | accessibility a =>
    refine .pure fun _ v w hvw => ?_
    obtain ⟨hname, hreturns, hparameters, hattributes, htexts, -, rest⟩ := Method.twin_iff.mp hvw
    exact Method.twin_iff.mpr ⟨hname, hreturns, hparameters, hattributes, htexts, rfl, rest⟩
  | modifiers m =>
    refine .pure fun _ v w hvw => ?_
    obtain ⟨hname, hreturns, hparameters, hattributes, htexts, haccess, -, rest⟩ := Method.twin_iff.mp hvw
    exact Method.twin_iff.mpr ⟨hname, hreturns, hparameters, hattributes, htexts, haccess, rfl, rest⟩
  | region r =>
    refine r.build_alike.bind fun _ _ hregion => .pure fun _ v w hvw => ?_
    obtain ⟨hname, hreturns, hparameters, hattributes, htexts, haccess, hmodifiers, -⟩ := Method.twin_iff.mp hvw
    exact Method.twin_iff.mpr
      ⟨hname, hreturns, hparameters, hattributes, htexts, haccess, hmodifiers, hregion⟩
  | _ => exact .failure

lemma forKind_alike (c : ChangeRecipe) (k : Kind) : Alike d (Kind.ChangeTwin d k) (c.forKind k) (c.forKind k) := by
  cases k with
  | typeRef | probe => exact .failure
  | constant => exact c.forConstant_alike
  | attr => exact c.forAttribute_alike
  | parameter => exact c.forParameter_alike
  | method => exact c.forMethod_alike

lemma forDefinition_alike (c : ChangeRecipe) : Alike d (Definition.ChangeTwin d) c.forDefinition c.forDefinition := by
  cases c with
  | kind k =>
    refine .pure fun _ v w hvw => ?_
    obtain ⟨hns, hname, -, rest⟩ := Definition.twin_iff.mp hvw
    exact Definition.twin_iff.mpr ⟨hns, hname, rfl, rest⟩
  | accessibility a =>
    refine .pure fun _ v w hvw => ?_
    obtain ⟨hns, hname, hkind, -, rest⟩ := Definition.twin_iff.mp hvw
    exact Definition.twin_iff.mpr ⟨hns, hname, hkind, rfl, rest⟩
  | base t =>
    refine t.build_alike.bind fun _ _ hx => .pure fun storage v w hvw => ?_
    obtain ⟨hns, hname, hkind, haccess, hbases, rest⟩ := Definition.twin_iff.mp hvw
    exact Definition.twin_iff.mpr ⟨hns, hname, hkind, haccess, hbases.add (k := .typeRef) storage hx, rest⟩
  | method m =>
    refine m.build_alike.bind fun _ _ hx => .pure fun storage v w hvw => ?_
    obtain ⟨hns, hname, hkind, haccess, hbases, hmethods, rest⟩ := Definition.twin_iff.mp hvw
    exact Definition.twin_iff.mpr ⟨hns, hname, hkind, haccess, hbases, hmethods.add (k := .method) storage hx, rest⟩
  | attributes edits =>
    match edits with
    | [.push a] =>
      refine a.build_alike.bind fun _ _ hx => .pure fun storage v w hvw => ?_
      obtain ⟨hns, hname, hkind, haccess, hbases, hmethods, hattributes, hregion⟩ := Definition.twin_iff.mp hvw
      exact Definition.twin_iff.mpr
        ⟨hns, hname, hkind, haccess, hbases, hmethods, hattributes.add (k := .attr) storage hx, hregion⟩
    | [] | [.insert ..] | [.put ..] | [.remove _] | [.truncate _] | [.clear] | [.reverse] => exact .failure
    | e :: _ :: _ => cases e <;> exact .failure
  | region r =>
    refine r.build_alike.bind fun _ _ hregion => .pure fun _ v w hvw => ?_
    obtain ⟨hns, hname, hkind, haccess, hbases, hmethods, hattributes, -⟩ := Definition.twin_iff.mp hvw
    exact Definition.twin_iff.mpr
      ⟨hns, hname, hkind, haccess, hbases, hmethods, hattributes, hregion⟩
  | _ => exact .failure

end ChangeRecipe

end Changes

namespace Session

variable {s t : Session} {i j : Item} {r : String}

lemma assignItem_alike (target : String) (h : i.Twin d j) :
    Alike d (fun _ _ => True) (assignItem target i) (assignItem target j) :=
  .modify fun _ _ hst => hst.put target h

lemma guarded_twins {α : Type} (frozen : Frozen) (name : String) {x y : Handle α} (v w : α) (hid : x.id = y.id) :
    (∃ e, guarded frozen name x v = .error e ∧ guarded frozen name y w = .error e) ∨
      guarded frozen name x v = .ok ⟨x.id, v⟩ ∧ guarded frozen name y w = .ok ⟨y.id, w⟩ := by
  unfold guarded
  rw [hid]
  cases (frozen.state y.id).checkMutable name with
  | error e => exact .inl ⟨e, rfl, rfl⟩
  | ok => exact .inr ⟨rfl, rfl⟩

lemma changed_alike {α : Type} {o o' : Except ModelError (Handle α)} {item : Handle α → Item} {answer : Item → Answer}
    {x y : Handle α} (h : (∃ e, o = .error e ∧ o' = .error e) ∨ o = .ok x ∧ o' = .ok y)
    (hxy : (item x).Twin d (item y)) (ha : ∀ i j, i.Twin d j → answer i = answer j) :
    Alike d (· = ·) (changed r (o.map item) answer) (changed r (o'.map item) answer) := by
  rcases h with ⟨e, rfl, rfl⟩ | ⟨rfl, rfl⟩
  · exact .pure rfl
  · exact (assignItem_alike r hxy).bind fun _ _ _ => .pure (ha _ _ hxy)

lemma change_alike (r : String) (c : ChangeRecipe) {answer : Item → Answer}
    (ha : ∀ i j, i.Twin d j → answer i = answer j) : Alike d (· = ·) (change r c answer) (change r c answer) := by
  refine (register_alike r).bind fun i j hij => ?_
  cases hij with
  | nothing | text | list => exact .failure
  | @entity k x y hid ho hp =>
    refine (c.forKind_alike k).bind fun e f hef => label_alike.bind fun a b hab => ?_
    refine Alike.get.bind fun u v huv => ?_
    have twins : (⟨x.id, k.change a x.val e⟩ : Handle k.Carrier).Twin d k ⟨y.id, k.change b y.val f⟩ :=
      Item.twin_entity.mpr ⟨hid, hab ▸ hef a _ _ ⟨ho, hp⟩⟩
    have sole : u.isSoleHolder r x.id = v.isSoleHolder r y.id := by rw [huv.isSoleHolder, hid]
    cases hs : v.isSoleHolder r y.id with
    | false =>
      simp only [sole, hs, Bool.false_eq_true, if_false]
      exact .pure rfl
    | true =>
      simp only [sole, hs, if_true, Kind.mutate, huv.frozen]
      exact changed_alike (guarded_twins v.frozen k.name _ _ hid) twins ha
  | @definition x y hid ho hp =>
    refine c.forDefinition_alike.bind fun e f hef => label_alike.bind fun a b hab => ?_
    refine Alike.get.bind fun u v huv => ?_
    have twins : (Item.definition ⟨x.id, x.val.change a e⟩).Twin d (.definition ⟨y.id, y.val.change b f⟩) :=
      Item.twin_definition.mpr ⟨hid, hab ▸ hef a _ _ ⟨ho, hp⟩⟩
    simp only [Definition.mutate, huv.frozen]
    exact changed_alike (guarded_twins v.frozen Definition.kindName _ _ hid) twins ha

lemma Twin.obstacle? (h : s.Twin d t) (r : String) : s.obstacle? r = t.obstacle? r := by
  unfold Session.obstacle?
  rcases rel_cases (h.register? r) with ⟨hn, hn'⟩ | ⟨i, j, hi, hj, hij⟩
  · rw [hn, hn']
  · rw [hi, hj]
    cases hij with
    | nothing | text | list | definition => rfl
    | entity hid => simp only [hid, h.isSoleHolder, h.frozen]

lemma editedLength_twins (c : ChangeRecipe) (h : i.Twin d j) : editedLength c i = editedLength c j := by
  cases h with
  | nothing | text | list | definition => cases c <;> rfl
  | @entity k x y _ ho hp =>
    have twins : Kind.Twin d k x.val y.val := ⟨ho, hp⟩
    cases k with
    | typeRef | constant | attr | probe => cases c <;> rfl
    | parameter =>
      have attributes := (Parameter.twin_iff.mp twins).2.2.1.length
      cases c with
      | attributes => exact congrArg Answer.length attributes
      | _ => rfl
    | method =>
      obtain ⟨-, -, parameters, attributes, -⟩ := Method.twin_iff.mp twins
      cases c with
      | attributes => exact congrArg Answer.length attributes.length
      | parameters => exact congrArg Answer.length parameters.length
      | _ => rfl

lemma edit_alike (r : String) (c : ChangeRecipe) : Alike d (· = ·) (edit r c) (edit r c) := by
  refine Alike.get.bind fun s t hst => ?_
  rw [hst.obstacle?]
  cases t.obstacle? r with
  | some refusal => exact .pure rfl
  | none => exact change_alike r c fun _ _ => editedLength_twins c

lemma frozenAnswer_alike {a b : Nat} (hab : a = b) : Alike d (· = ·)
    (do return Answer.frozen ((← get).frozen.contains a)) (do return Answer.frozen ((← get).frozen.contains b)) :=
  Alike.get.bind fun u v huv => .pure (by rw [huv.frozen, hab])

lemma freeze_alike (r : String) : Alike d (· = ·) (freeze r) (freeze r) := by
  refine (register_alike r).bind fun i j hij => ?_
  cases hij with
  | nothing | text | list => exact .failure
  | @entity k x y hid ho hp =>
    have marks := (Item.Twin.entity hid ho hp).mark
    exact .bind (.modify fun u v huv => huv.withFrozen ((marks u.frozen).trans (by rw [huv.frozen]; rfl)))
      fun _ _ _ => frozenAnswer_alike hid
  | @definition x y hid ho hp =>
    obtain ⟨id, v⟩ := x
    obtain ⟨_, w⟩ := y
    obtain rfl : id = _ := hid
    have marks := (Item.Twin.definition (x := ⟨id, v⟩) (y := ⟨id, w⟩) rfl ho hp).mark
    have twins : v.Twin d w := ⟨ho, hp⟩
    have length := (Definition.twin_iff.mp twins).2.2.2.2.2.1.length
    have marked : Alike d (· = ·) (do
        modify fun s : Session => { s with frozen := Definition.mark ⟨id, v⟩ s.frozen }
        return Answer.frozen ((← get).frozen.contains id)) (do
        modify fun s : Session => { s with frozen := Definition.mark ⟨id, w⟩ s.frozen }
        return Answer.frozen ((← get).frozen.contains id)) :=
      .bind (.modify fun s t hst => hst.withFrozen ((marks s.frozen).trans (by rw [hst.frozen]; rfl)))
        fun _ _ _ => frozenAnswer_alike rfl
    refine Alike.get.bind fun s t hst => ?_
    rw [hst.frozen]
    cases t.frozen.contains id with
    | true => exact marked
    | false =>
      exact .bind (.modify fun s t hst => hst.emit (by rw [twins.fullName, length])) fun _ _ _ => marked

lemma isFrozen_alike (r : String) : Alike d (· = ·) (isFrozen r) (isFrozen r) := by
  refine (register_alike r).bind fun i j hij => ?_
  cases hij with
  | nothing | text | list => exact .failure
  | entity hid | definition hid => exact frozenAnswer_alike hid

section Bindings

lemma bind_alike (target : String) (r : ItemRecipe) : Alike d (· = ·) (run (.bind target r)) (run (.bind target r)) :=
  r.build_alike.bind fun _ _ hij => (assignItem_alike target hij).bind fun _ _ _ => .pure rfl

lemma drop_alike (rs : List String) : Alike d (· = ·) (run (.drop rs)) (run (.drop rs)) := by
  refine .bind (.modify fun s t hst => { hst with registers := ?_ }) fun _ _ _ => .pure rfl
  have dropped (bs cs : List (String × Item)) (h : List.Forall₂ (BindsTwins (Item.Twin d)) bs cs) :
      List.Forall₂ (BindsTwins (Item.Twin d)) (rs.foldl (fun bs r => unassign r bs) bs)
        (rs.foldl (fun bs r => unassign r bs) cs) := by
    induction rs generalizing bs cs with
    | nil => exact h
    | cons r rs ih => exact ih _ _ (rel_unassign h r)
  exact dropped _ _ hst.registers

lemma dropProvider_alike (p : String) : Alike d (· = ·) (run (.dropProvider p)) (run (.dropProvider p)) :=
  .bind (.modify fun _ _ hst => { hst with
    providers := rel_unassign hst.providers p
    named := fun b hb => hst.named b (mem_unassign.mp hb).1 }) fun _ _ _ => .pure rfl

lemma newPool_alike (target : String) : Alike d (· = ·) (run (.newPool target)) (run (.newPool target)) :=
  .bind (.modify fun _ _ hst => { hst with
    pools := rel_assign hst.pools target (Spellings.Twin.refl _ not_false) }) fun _ _ _ => .pure rfl

lemma get_alike (r : String) (path : List Segment) (target : String) :
    Alike d (· = ·) (run (.get r path target)) (run (.get r path target)) := by
  refine (register_alike r).bind fun i j hij => ?_
  rcases rel_cases (hij.follow? path) with ⟨hn, hn'⟩ | ⟨p, q, hp, hq, hpq⟩
  · rw [hn, hn']
    exact .pure rfl
  · rw [hp, hq]
    exact hpq.share.bind fun _ _ h => (assignItem_alike target h).bind fun _ _ _ => .pure rfl

lemma copyUnfrozen_alike (r target : String) :
    Alike d (· = ·) (run (.copyUnfrozen r target)) (run (.copyUnfrozen r target)) := by
  refine (register_alike r).bind fun i j hij => ?_
  cases hij with
  | nothing | text | list | definition => exact .failure
  | @entity k x y _ ho hp =>
    have twins : k.Twin d x.val y.val := ⟨ho, hp⟩
    refine (objectLabels_alike 2).bind fun a b hab => ?_
    rw [← hab]
    exact (place_alike (twins.copy a)).bind fun _ _ h => (assignItem_alike target h).bind fun _ _ _ => .pure rfl

end Bindings

section Questions

lemma option_alike {α : Type} (o : Option α) : Alike d (· = ·) (Builder.ofOption o) (Builder.ofOption o) := by
  cases o with
  | none => exact .failure
  | some => exact .pure rfl

lemma display_alike (r : String) : Alike d (· = ·) (run (.display r)) (run (.display r)) := by
  refine (register_alike r).bind fun i j hij => ?_
  rw [hij.display]
  exact (option_alike _).bind fun _ _ h => .pure (congrArg Answer.display h)

lemma inspect_alike (r : String) : Alike d (· = ·) (run (.inspect r)) (run (.inspect r)) := by
  refine Alike.get.bind fun s t hst => (register_alike r).bind fun i j hij => ?_
  rw [hst.frozen, hij.inspect]
  exact (option_alike _).bind fun _ _ h => .pure (congrArg Answer.inspected h)

lemma findIdx_congr {α β : Type} {f : α → Bool} {g : β → Bool} {as : List α} {bs : List β}
    (h : List.Forall₂ (fun a b => f a = g b) as bs) : as.findIdx f = bs.findIdx g := by
  induction h with
  | nil => rfl
  | cons hab _ ih => rw [List.findIdx_cons, List.findIdx_cons, hab, ih]

lemma findMethods_alike (r name : String) :
    Alike d (· = ·) (run (.findMethods r name)) (run (.findMethods r name)) := by
  refine (register_alike r).bind fun i j hij => ?_
  cases hij with
  | nothing | text | list | entity => exact .failure
  | @definition x y _ ho hp =>
    have twins : x.val.Twin d y.val := ⟨ho, hp⟩
    have methods := (Definition.twin_iff.mp twins).2.2.2.2.2.1.items
    refine .pure (congrArg Answer.methods (map_of_forall₂ ((twins.findMethods name).imp fun m n hmn => ?_)))
    have id : m.id = n.id := (Item.twin_entity.mp hmn).1
    have place : x.val.methods.items.findIdx (·.id == m.id) = y.val.methods.items.findIdx (·.id == n.id) :=
      findIdx_congr (methods.imp fun _ _ h => by rw [(Item.twin_entity.mp h).1, id])
    rw [place, Option.some.inj hmn.display]

lemma walk_alike (r : String) : Alike d (· = ·) (run (.walk r)) (run (.walk r)) := by
  refine Alike.get.bind fun s t hst => (register_alike r).bind fun i j hij => ?_
  cases hij with
  | nothing | text | entity | definition => exact .failure
  | @list k l m hs hn hi =>
    have items : List.Forall₂ (Handle.Twin d k) l.items m.items := by simpa using hi
    refine .pure (congrArg Answer.walk (map_of_forall₂ (items.imp fun x y hxy => ?_)))
    rw [hst.frozen, (Item.twin_entity.mp hxy).1]

end Questions

end Session

end CodeModel
