import CodeModel.Proofs.Interning.Twins
import CodeModel.Proofs.Session.Bindings

/-! Twin sessions bind the same names to twins, and have given out the same labels. -/

namespace CodeModel

def BindsTwins {α β : Type} (R : α → β → Prop) (b : String × α) (c : String × β) : Prop := b.1 = c.1 ∧ R b.2 c.2

structure Session.Twin (d : Seeding) (s t : Session) : Prop where
  hasher : s.hasher = t.hasher
  registers : List.Forall₂ (BindsTwins (Item.Twin d)) s.registers t.registers
  providers : List.Forall₂ (BindsTwins (Provider.Twin s.hasher d)) s.providers t.providers
  pools : List.Forall₂ (BindsTwins (TextPool.Twin s.hasher d False)) s.pools t.pools
  frozen : s.frozen = t.frozen
  nextObject : s.nextObject = t.nextObject
  nextText : s.nextText = t.nextText
  nextProvider : s.nextProvider = t.nextProvider
  events : s.events = t.events
  given : d.number < s.nextProvider
  named : ∀ b ∈ s.providers, b.2.number = d.number → b.1 = d.name

section Bindings

variable {α β : Type} {R : α → β → Prop} {bs : List (String × α)} {cs : List (String × β)} {a : α} {c : β}

lemma rel_lookup (h : List.Forall₂ (BindsTwins R) bs cs) (name : String) :
    Option.Rel R (bs.lookup name) (cs.lookup name) := by
  induction h with
  | nil => exact .none
  | @cons b c _ _ hbc _ ih =>
    obtain ⟨n, x⟩ := b
    obtain ⟨m, y⟩ := c
    obtain ⟨rfl, hxy⟩ : n = m ∧ R x y := hbc
    rw [List.lookup_cons, List.lookup_cons]
    split
    · exact .some hxy
    · exact ih

lemma rel_assign (h : List.Forall₂ (BindsTwins R) bs cs) (name : String) (hac : R a c) :
    List.Forall₂ (BindsTwins R) (assign name a bs) (assign name c cs) := by
  induction h with
  | nil => exact .cons ⟨rfl, hac⟩ .nil
  | cons hbc h ih =>
    rw [assign, assign, ← hbc.1]
    split
    · exact .cons ⟨rfl, hac⟩ h
    · exact .cons hbc ih

lemma rel_unassign (h : List.Forall₂ (BindsTwins R) bs cs) (name : String) :
    List.Forall₂ (BindsTwins R) (unassign name bs) (unassign name cs) :=
  rel_filter_eq h fun _ _ hbc => by rw [hbc.1]

end Bindings

namespace Session.Twin

variable {d : Seeding} {s t : Session}

lemma register? (h : s.Twin d t) (name : String) : Option.Rel (Item.Twin d) (s.register? name) (t.register? name) :=
  rel_lookup h.registers name

lemma provider? (h : s.Twin d t) (name : String) :
    Option.Rel (Provider.Twin s.hasher d) (s.providers.lookup name) (t.providers.lookup name) :=
  rel_lookup h.providers name

theorem heldBeside (h : s.Twin d t) (r p : Option String) : s.heldBeside r p = t.heldBeside r p := by
  have registers : List.Forall₂ (BindsTwins (Item.Twin d)) (r.elim s.registers (unassign · s.registers))
      (r.elim t.registers (unassign · t.registers)) := by
    cases r with
    | none => exact h.registers
    | some r => exact rel_unassign h.registers r
  have providers : List.Forall₂ (BindsTwins (Provider.Twin s.hasher d)) (p.elim s.providers (unassign · s.providers))
      (p.elim t.providers (unassign · t.providers)) := by
    cases p with
    | none => exact h.providers
    | some p => exact rel_unassign h.providers p
  have marks : markAll ((r.elim s.registers (unassign · s.registers)).map Prod.snd) =
      markAll ((r.elim t.registers (unassign · t.registers)).map Prod.snd) := by
    apply Item.markAll_twins
    rw [List.forall₂_map_left_iff, List.forall₂_map_right_iff]
    exact registers.imp fun _ _ h => h.2
  have marked := congrFun marks SharedType.marks
  simp only [markAll, List.foldl_map] at marked
  funext id
  simp only [Session.heldBeside, marked]
  congr 1
  exact rel_any providers fun _ _ _ _ h => by rw [h.2.holds]

lemma isSoleHolder (h : s.Twin d t) (r : String) (id : Nat) : s.isSoleHolder r id = t.isSoleHolder r id := by
  rw [Session.isSoleHolder, Session.isSoleHolder, h.heldBeside]

lemma put (h : s.Twin d t) (name : String) {i j : Item} (hij : i.Twin d j) : (s.put name i).Twin d (t.put name j) :=
  { h with registers := rel_assign h.registers name hij }

lemma withFrozen (h : s.Twin d t) {f g : Frozen} (hfg : f = g) :
    Session.Twin d { s with frozen := f } { t with frozen := g } :=
  { h with frozen := hfg }

lemma emit (h : s.Twin d t) {e f : Event} (hef : e = f) : (s.emit e).Twin d (t.emit f) :=
  { h with events := congrArg₂ (fun es e => es ++ [e]) h.events hef }

end Session.Twin

def Builder.Pairs {α β : Type} (d : Seeding) (R : α → β → Prop) (act : Builder α) (act' : Builder β) (s t : Session) :
    Prop :=
  Option.Rel (fun a b => R a.1 b.1 ∧ a.2.Twin d b.2) (act.run s) (act'.run t)

def Builder.Alike {α β : Type} (d : Seeding) (R : α → β → Prop) (act : Builder α) (act' : Builder β) : Prop :=
  ∀ s t, s.Twin d t → Builder.Pairs d R act act' s t

namespace Builder

variable {α β γ δ : Type} {d : Seeding} {R R' : α → β → Prop} {S : γ → δ → Prop} {act : Builder α}
  {act' : Builder β} {next : α → Builder γ} {next' : β → Builder δ} {s t : Session}

lemma Pairs.bind (h : Pairs d R act act' s t)
    (h' : ∀ a b u v, act.run s = some (a, u) → act'.run t = some (b, v) → R a b → u.Twin d v →
      Pairs d S (next a) (next' b) u v) : Pairs d S (act >>= next) (act' >>= next') s t := by
  rw [Pairs, StateT.run_bind, StateT.run_bind]
  rcases rel_cases h with ⟨hn, hn'⟩ | ⟨⟨a, u⟩, ⟨b, v⟩, ha, hb, hab, huv⟩
  · rw [hn, hn']
    exact .none
  · rw [ha, hb]
    exact h' a b u v ha hb hab huv

lemma Pairs.imp (h : Pairs d R act act' s t) (hR : ∀ a b, R a b → R' a b) : Pairs d R' act act' s t := by
  rcases rel_cases h with ⟨hn, hn'⟩ | ⟨x, y, hx, hy, hxy⟩
  · rw [Pairs, hn, hn']
    exact .none
  · rw [Pairs, hx, hy]
    exact .some ⟨hR _ _ hxy.1, hxy.2⟩

namespace Alike

lemma bind (h : Alike d R act act') (h' : ∀ a b, R a b → Alike d S (next a) (next' b)) :
    Alike d S (act >>= next) (act' >>= next') := fun s t hst =>
  (h s t hst).bind fun a b u v _ _ hab huv => h' a b hab u v huv

lemma pure {a : α} {b : β} (hab : R a b) : Alike d R (pure a) (pure b) := fun _ _ hst => .some ⟨hab, hst⟩

lemma failure : Alike d R (failure : Builder α) failure := fun _ _ _ => .none

lemma ofOption {a : Option α} {b : Option β} (hab : Option.Rel R a b) : Alike d R (ofOption a) (ofOption b) := by
  cases hab with
  | none => exact failure
  | some hab => exact pure hab

lemma get : Alike d (Session.Twin d) (MonadState.get : Builder Session) MonadState.get :=
  fun _ _ hst => .some ⟨hst, hst⟩

lemma modify {f g : Session → Session} (h : ∀ s t, s.Twin d t → (f s).Twin d (g t)) :
    Alike d (fun _ _ => True) (modify f : Builder Unit) (modify g) :=
  fun s t hst => .some ⟨trivial, h s t hst⟩

lemma mapM {ι : Type} {f : ι → Builder α} {g : ι → Builder β} (as : List ι) (h : ∀ a ∈ as, Alike d R (f a) (g a)) :
    Alike d (List.Forall₂ R) (as.mapM f) (as.mapM g) := by
  induction as with
  | nil => exact pure .nil
  | cons a as ih =>
    rw [List.mapM_cons, List.mapM_cons]
    refine (h a (by simp)).bind fun x y hxy => ?_
    exact (ih fun b hb => h b (by simp [hb])).bind fun xs ys hs => pure (.cons hxy hs)

lemma optionM {ι : Type} {f : ι → Builder α} {g : ι → Builder β} (a : Option ι) (h : ∀ a, Alike d R (f a) (g a)) :
    Alike d (Option.Rel R) (a.mapM f) (a.mapM g) := by
  cases a with
  | none => exact pure .none
  | some a => exact (h a).bind fun x y hxy => pure (.some hxy)

end Alike

lemma objectLabels_alike (n : Nat) : Alike d (· = ·) (objectLabels n) (objectLabels n) := fun _ _ hst =>
  .some ⟨hst.nextObject, { hst with nextObject := congrArg (· + n) hst.nextObject }⟩

lemma label_alike : Alike d (· = ·) label label := objectLabels_alike 1

lemma textLabels_alike (n : Nat) : Alike d (· = ·) (textLabels n) (textLabels n) := fun _ _ hst =>
  .some ⟨hst.nextText, { hst with nextText := congrArg (· + n) hst.nextText }⟩

lemma text_alike (v : String) : Alike d (Text.Twin d) (text v) (text v) :=
  (textLabels_alike 1).bind fun a _ hab => .pure (hab ▸ .refl ⟨a, v⟩)

lemma place_alike {k : Kind} {v w : k.Carrier} (h : k.Twin d v w) : Alike d (Handle.Twin d k) (place v) (place w) :=
  label_alike.bind fun _ _ hab => .pure (Item.twin_entity.mpr ⟨hab, h⟩)

lemma list_alike {k : Kind} {xs ys : List (Handle k.Carrier)} (h : List.Forall₂ (Handle.Twin d k) xs ys) :
    Alike d (EntityList.Twin d k) (list xs) (list ys) :=
  label_alike.bind fun _ _ hab => .pure (Item.twin_list.mpr ⟨rfl, hab, h⟩)

lemma register_alike (name : String) : Alike d (Item.Twin d) (register name) (register name) :=
  Alike.get.bind fun _ _ hst => .ofOption (hst.register? name)

lemma entity_alike (k : Kind) (name : String) : Alike d (Handle.Twin d k) (entity k name) (entity k name) := by
  refine (register_alike name).bind fun i j hij => ?_
  cases hij with
  | @entity l x y hid ho hp =>
    by_cases h : l = k
    · subst h
      simpa using .pure (Item.Twin.entity hid ho hp)
    · simpa [h] using .failure
  | _ => exact .failure

end Builder

open Builder

variable {d : Seeding}

section Recipes

lemma TextRecipe.build_alike (r : TextRecipe) : Alike d (Text.Twin d) r.build r.build := by
  cases r with
  | register name =>
    refine (register_alike name).bind fun i j hij => ?_
    cases hij with
    | text htu => exact .pure htu
    | _ => exact .failure
  | empty => exact .pure (.refl _)
  | fresh v => exact text_alike v

lemma buildNs_alike (ns : String) : Alike d (Text.Twin d) (buildNs ns) (buildNs ns) := by
  unfold buildNs
  split
  · exact .pure (.refl _)
  · exact text_alike ns

lemma RegionRecipe.build_alike (r : RegionRecipe) : Alike d (Region.Twin d) r.build r.build := by
  obtain ⟨_ | f, start, stop⟩ := r
  · exact .pure (Region.twin_iff.mpr ⟨.none, rfl, rfl⟩)
  · exact f.build_alike.bind fun t u htu => .pure (Region.twin_iff.mpr ⟨.some htu, rfl, rfl⟩)

namespace TypeRecipe

mutual

lemma build_alike (r : TypeRecipe) : Alike d (Handle.Twin d .typeRef) r.build r.build := by
  cases r with
  | register name => exact entity_alike .typeRef name
  | shared t => exact .pure (.refl _)
  | named ns name args =>
    refine (buildNs_alike ns).bind fun _ _ hns => (text_alike name).bind fun _ _ hname => ?_
    refine (buildAll_alike args).bind fun _ _ hargs => (list_alike (k := .typeRef) hargs).bind fun _ _ hargs => ?_
    exact place_alike (k := .typeRef) (TypeRef.twin_iff.mpr (.named hns hname hargs))
  | array e rank =>
    exact (build_alike e).bind fun _ _ hx => place_alike (k := .typeRef) (TypeRef.twin_iff.mpr (.array _ hx))
  | byRef e =>
    exact (build_alike e).bind fun _ _ hx => place_alike (k := .typeRef) (TypeRef.twin_iff.mpr (.byRef hx))

lemma buildAll_alike (rs : List TypeRecipe) :
    Alike d (List.Forall₂ (Handle.Twin d .typeRef)) (buildAll rs) (buildAll rs) := by
  cases rs with
  | nil => exact .pure .nil
  | cons r rs =>
    exact (build_alike r).bind fun _ _ hx => (buildAll_alike rs).bind fun _ _ hxs => .pure (.cons hx hxs)

end

end TypeRecipe

lemma LiteralRecipe.build_alike (r : LiteralRecipe) : Alike d (Literal.Twin d) r.build r.build := by
  cases r with
  | string t => exact t.build_alike.bind fun _ _ htu => .pure ⟨rfl, .text htu⟩
  | plain l noText => exact .pure ⟨rfl, .refl _⟩

lemma ConstantRecipe.build_alike (r : ConstantRecipe) : Alike d (Handle.Twin d .constant) r.build r.build := by
  cases r with
  | register name => exact entity_alike .constant name
  | null => exact place_alike (k := .constant) (Constant.twin_iff.mpr ⟨.refl _, rfl, .refl _⟩)
  | make type literal =>
    refine type.build_alike.bind fun _ _ htype => literal.build_alike.bind fun _ _ hliteral => ?_
    exact place_alike (k := .constant) (Constant.twin_iff.mpr ⟨htype, hliteral⟩)

lemma buildNamed_alike (n : String × ConstantRecipe) : Alike d (NamedArgument.Twin d) (buildNamed n) (buildNamed n) :=
  (text_alike n.1).bind fun _ _ hname => n.2.build_alike.bind fun _ _ hvalue => .pure ⟨hname, hvalue⟩

lemma AttributeRecipe.build_alike (r : AttributeRecipe) : Alike d (Handle.Twin d .attr) r.build r.build := by
  cases r with
  | register name => exact entity_alike .attr name
  | make type positional named region =>
    refine type.build_alike.bind fun _ _ htype => ?_
    refine (Alike.mapM positional fun c _ => c.build_alike).bind fun _ _ hs => ?_
    refine (list_alike (k := .constant) hs).bind fun _ _ hpositional => ?_
    refine (Alike.mapM named fun n _ => buildNamed_alike n).bind fun _ _ hnamed => ?_
    refine region.build_alike.bind fun _ _ hregion => ?_
    exact place_alike (k := .attr) (Attribute.twin_iff.mpr ⟨htype, hpositional, hnamed, hregion⟩)

lemma ParameterRecipe.build_alike (r : ParameterRecipe) : Alike d (Handle.Twin d .parameter) r.build r.build := by
  cases r with
  | register name => exact entity_alike .parameter name
  | make name type attributes default region modes =>
    refine (TextRecipe.build_alike _).bind fun _ _ hname => type.build_alike.bind fun _ _ htype => ?_
    refine (Alike.mapM attributes fun a _ => a.build_alike).bind fun _ _ hs => ?_
    refine (list_alike (k := .attr) hs).bind fun _ _ hattributes => ?_
    refine (Alike.optionM default fun c => c.build_alike).bind fun _ _ hdefault => ?_
    refine region.build_alike.bind fun _ _ hregion => ?_
    exact place_alike (k := .parameter)
      (Parameter.twin_iff.mpr ⟨hname, htype, hattributes, hdefault, hregion, rfl⟩)

lemma MethodRecipe.build_alike (r : MethodRecipe) : Alike d (Handle.Twin d .method) r.build r.build := by
  cases r with
  | register name => exact entity_alike .method name
  | make name returns parameters attributes typeParameters accessibility modifiers region =>
    refine name.build_alike.bind fun _ _ hname => returns.build_alike.bind fun _ _ hreturns => ?_
    refine (Alike.mapM parameters fun p _ => p.build_alike).bind fun _ _ hs => ?_
    refine (list_alike (k := .parameter) hs).bind fun _ _ hparameters => ?_
    refine (Alike.mapM attributes fun a _ => a.build_alike).bind fun _ _ hs => ?_
    refine (list_alike (k := .attr) hs).bind fun _ _ hattributes => ?_
    refine (Alike.mapM typeParameters fun v _ => text_alike v).bind fun _ _ htexts => ?_
    refine region.build_alike.bind fun _ _ hregion => ?_
    exact place_alike (k := .method)
      (Method.twin_iff.mpr ⟨hname, hreturns, hparameters, hattributes, htexts, rfl, rfl, hregion⟩)

lemma DefinitionRecipe.build_alike (r : DefinitionRecipe) :
    Alike d (fun x y => Item.Twin d (.definition x) (.definition y)) r.build r.build := by
  refine (buildNs_alike r.ns).bind fun _ _ hns => (text_alike r.name).bind fun _ _ hname => ?_
  refine (Alike.mapM r.bases fun b _ => b.build_alike).bind fun _ _ hs => ?_
  refine (list_alike (k := .typeRef) hs).bind fun _ _ hbases => ?_
  refine (Alike.mapM r.methods fun m _ => m.build_alike).bind fun _ _ hs => ?_
  refine (list_alike (k := .method) hs).bind fun _ _ hmethods => ?_
  refine (Alike.mapM r.attributes fun a _ => a.build_alike).bind fun _ _ hs => ?_
  refine (list_alike (k := .attr) hs).bind fun _ _ hattributes => ?_
  refine r.region.build_alike.bind fun _ _ hregion => label_alike.bind fun _ _ hab => .pure ?_
  exact Item.twin_definition.mpr
    ⟨hab, Definition.twin_iff.mpr ⟨hns, hname, rfl, rfl, hbases, hmethods, hattributes, hregion⟩⟩

lemma ProbeRecipe.place_alike {series : ProbeSeries} {hash : UInt64} {tag : Int} {child child' : Option (Handle Probe)}
    (frozen : Bool) (h : Option.Rel (Handle.Twin d (.probe series)) child child') :
    Alike d (Handle.Twin d (.probe series)) (do
      let x ← place (.mk hash tag child)
      if frozen then modify fun s => { s with frozen := x.id :: s.frozen }
      return x) (do
      let x ← place (.mk hash tag child')
      if frozen then modify fun s => { s with frozen := x.id :: s.frozen }
      return x) := by
  have twins : Kind.Twin d (.probe series) (.mk hash tag child) (.mk hash tag child') := by
    cases h with
    | none => exact ⟨rfl, .cons .nothing .nil⟩
    | some h => exact ⟨rfl, .cons h .nil⟩
  refine (Builder.place_alike twins).bind fun x y hxy => ?_
  cases frozen with
  | true =>
    refine .bind (.modify fun s t hst => hst.withFrozen ?_) fun _ _ _ => .pure hxy
    rw [hst.frozen, (Item.twin_entity.mp hxy).1]
  | false => exact .pure hxy

lemma ProbeRecipe.build_alike (series : ProbeSeries) (r : ProbeRecipe) :
    Alike d (Handle.Twin d (.probe series)) (r.build series) (r.build series) := by
  match r with
  | .register name => exact entity_alike (.probe series) name
  | .make hash tag none frozen => exact .bind (.pure .none) fun _ _ h => place_alike frozen h
  | .make hash tag (some c) frozen =>
    exact (build_alike series c).bind fun x y hxy => place_alike frozen (.some hxy)

lemma Kind.build_alike (k : Kind) (r : k.Recipe) : Alike d (Handle.Twin d k) (k.build r) (k.build r) := by
  cases k with
  | typeRef => exact TypeRecipe.build_alike r
  | constant => exact ConstantRecipe.build_alike r
  | attr => exact AttributeRecipe.build_alike r
  | parameter => exact ParameterRecipe.build_alike r
  | method => exact MethodRecipe.build_alike r
  | probe series => exact ProbeRecipe.build_alike series r

lemma Item.Twin.share {i j : Item} (h : i.Twin d j) : Builder.Alike d (Item.Twin d) i.share j.share := by
  cases h with
  | list hs hn hi => exact label_alike.bind fun a b hab => .pure (hab ▸ EntityList.Twin.copy (.list hs hn hi) a)
  | definition => exact .failure
  | nothing => exact .pure .nothing
  | text htu => exact .pure (.text htu)
  | entity hid ho hp => exact .pure (.entity hid ho hp)

theorem ItemRecipe.build_alike (r : ItemRecipe) : Alike d (Item.Twin d) r.build r.build := by
  cases r with
  | nothing => exact .pure .nothing
  | register name => exact (register_alike name).bind fun _ _ h => h.share
  | text r => exact r.build_alike.bind fun _ _ h => .pure (.text h)
  | entity k r => exact (k.build_alike r).bind fun _ _ h => .pure h
  | list k rs =>
    refine (Alike.mapM rs fun r _ => k.build_alike r).bind fun _ _ hs => ?_
    exact (list_alike hs).bind fun _ _ h => .pure h
  | definition r => exact r.build_alike.bind fun _ _ h => .pure h

end Recipes

end CodeModel
