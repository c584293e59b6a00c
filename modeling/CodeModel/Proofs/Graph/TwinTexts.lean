import CodeModel.Proofs.Graph.TwinFields

namespace CodeModel

variable {d : Seeding} {frozen : Nat → Bool} {k : Kind}

lemma mapM_of_forall₂ {α β γ : Type} {f : α → Option γ} {g : β → Option γ} {as : List α} {bs : List β}
    (h : List.Forall₂ (fun a b => f a = g b) as bs) : as.mapM f = bs.mapM g := by
  induction h with
  | nil => rfl
  | cons hab _ ih => rw [List.mapM_cons, List.mapM_cons, hab, ih]

section Fields

variable {t u : Text} {r q : Region}

lemma Text.Twin.inspect (h : t.Twin d u) : t.inspect = u.inspect := congrArg Text.quoted h.1

lemma Region.Twin.inspect (h : r.Twin d q) : r.inspect = q.inspect := by
  obtain ⟨file, start, stop⟩ := Region.twin_iff.mp h
  have shown : r.file.map Text.inspect = q.file.map Text.inspect := by
    rcases rel_cases file with ⟨hn, hn'⟩ | ⟨t, u, ht, hu, htu⟩
    · rw [hn, hn']
    · rw [ht, hu, Option.map_some, Option.map_some, htu.inspect]
  rw [Region.inspect, Region.inspect, shown, start, stop]

lemma Literal.Twin.inspect {l m : Literal} (h : l.Twin d m) : l.inspect = m.inspect := by
  obtain ⟨ho, hp⟩ := h
  cases l <;> cases m <;> simp_all [Literal.outline, Literal.part, Literal.inspect]
  exact hp.inspect

lemma inspectBy_eq {l m : EntityList k.Carrier} {g : Handle k.Carrier → String}
    (hg : ∀ x, k.inspect? frozen x = some (g x))
    (h : (Item.list k l).inspect? frozen = (Item.list k m).inspect? frozen) : l.inspectBy g = m.inspectBy g := by
  have all : k.inspect? frozen = fun x => some (g x) := funext hg
  have shown (xs : List (Handle k.Carrier)) : xs.mapM (k.inspect? frozen) = some (xs.map g) := by
    rw [all]
    exact List.mapM_pure
  simp only [Item.inspect?, shown, Option.map_some, Option.some.injEq] at h
  exact h

lemma TypeRef.inspectAll_eq (xs : List (Handle TypeRef)) :
    inspectAll frozen xs = xs.map fun x => x.val.inspect frozen x.id := by
  induction xs with
  | nil => rfl
  | cons x xs ih => rw [inspectAll, ih, List.map_cons]

end Fields

lemma shown_entity {x y : Handle k.Carrier} {g : Handle k.Carrier → String} (hg : ∀ x, k.inspect? frozen x = some (g x))
    (h : (Item.entity k x).inspect? frozen = (Item.entity k y).inspect? frozen) : g x = g y :=
  Option.some.inj ((hg x).symm.trans (h.trans (hg y)))

lemma inspect?_of_parts {x y : Handle k.Carrier} (h : x.Twin d k y)
    (ih : ∀ p ∈ k.parts x.val, ∀ q, p.Twin d q → p.inspect? frozen = q.inspect? frozen) :
    k.inspect? frozen x = k.inspect? frozen y := by
  obtain ⟨hid, values⟩ := Item.twin_entity.mp h
  obtain ⟨id, v⟩ := x
  obtain ⟨_, w⟩ := y
  obtain rfl : id = _ := hid
  have twins : k.Twin d v w := values
  have entity {j : Kind} {x y : Handle j.Carrier} {g : Handle j.Carrier → String} (hx : .entity j x ∈ k.parts v)
      (hxy : x.Twin d j y) (hg : ∀ x, j.inspect? frozen x = some (g x)) : g x = g y := shown_entity hg (ih _ hx _ hxy)
  have list {j : Kind} {l m : EntityList j.Carrier} {g : Handle j.Carrier → String} (hl : .list j l ∈ k.parts v)
      (hlm : l.Twin d j m) (hg : ∀ x, j.inspect? frozen x = some (g x)) : l.inspectBy g = m.inspectBy g :=
    inspectBy_eq hg (ih _ hl _ hlm)
  cases k with
  | probe => rfl
  | typeRef =>
    cases TypeRef.twin_iff.mp twins with
    | plain t => rfl
    | named hns hname hargs =>
      have args := list (by simp [Kind.parts, TypeRef.parts]) hargs fun _ => rfl
      simp only [EntityList.inspectBy, ← TypeRef.inspectAll_eq] at args
      simp only [Kind.inspect?, TypeRef.inspect, hns.inspect, hname.inspect, args]
    | array rank hx | byRef hx =>
      have element := entity (by simp [Kind.parts, TypeRef.parts]) hx fun _ => rfl
      simp only [Kind.inspect?, TypeRef.inspect, element]
  | constant =>
    obtain ⟨htype, hliteral⟩ := Constant.twin_iff.mp twins
    have type := entity (by simp [Kind.parts, Constant.parts]) htype fun _ => rfl
    simp only [Kind.inspect?, Constant.inspect, type, hliteral.inspect]
  | attr =>
    obtain ⟨htype, hpositional, hnamed, hregion⟩ := Attribute.twin_iff.mp twins
    have type := entity (by simp [Kind.parts, Attribute.parts]) htype fun _ => rfl
    have positional := list (by simp [Kind.parts, Attribute.parts]) hpositional fun _ => rfl
    have named : v.named.map (NamedArgument.inspect frozen) = w.named.map (NamedArgument.inspect frozen) := by
      refine map_of_forall₂ (forall₂_of_mem hnamed fun n hn m _ hnm => ?_)
      have within : .entity .constant n.value ∈ Kind.parts .attr v := by
        simp only [Kind.parts, Attribute.parts, List.mem_append, List.mem_flatMap]
        exact .inl (.inr ⟨n, hn, by simp [NamedArgument.parts]⟩)
      have value := entity within hnm.2 fun _ => rfl
      simp only [NamedArgument.inspect, hnm.1.inspect, value]
    simp only [Kind.inspect?, Attribute.inspect, type, positional, named, hregion.inspect]
  | parameter =>
    obtain ⟨hname, htype, hattributes, hdefault, hregion, hflags⟩ := Parameter.twin_iff.mp twins
    have type := entity (by simp [Kind.parts, Parameter.parts]) htype fun _ => rfl
    have attributes := list (by simp [Kind.parts, Parameter.parts]) hattributes fun _ => rfl
    have default : (v.default.map fun c => c.val.inspect frozen c.id) =
        w.default.map fun c => c.val.inspect frozen c.id := by
      rcases rel_cases hdefault with ⟨hn, hn'⟩ | ⟨c, e, hc, he, hce⟩
      · rw [hn, hn']
      · have value := entity (by simp [Kind.parts, Parameter.parts, hc]) hce fun _ => rfl
        rw [hc, he, Option.map_some, Option.map_some, value]
    simp only [Kind.inspect?, Parameter.inspect, hname.inspect, type, attributes, default, hregion.inspect, hflags]
  | method =>
    obtain ⟨hname, hreturns, hparameters, hattributes, htexts, haccess, hmodifiers, hregion⟩ := Method.twin_iff.mp twins
    have returns := entity (by simp [Kind.parts, Method.parts]) hreturns fun _ => rfl
    have parameters := list (by simp [Kind.parts, Method.parts]) hparameters fun _ => rfl
    have attributes := list (by simp [Kind.parts, Method.parts]) hattributes fun _ => rfl
    have texts : v.typeParameters.map Text.inspect = w.typeParameters.map Text.inspect :=
      map_of_forall₂ (htexts.imp fun _ _ h => h.inspect)
    simp only [Kind.inspect?, Method.inspect, hname.inspect, returns, parameters, attributes, texts, haccess,
      hmodifiers, hregion.inspect]

theorem Item.Twin.inspect {i j : Item} (h : i.Twin d j) (frozen : Nat → Bool) :
    i.inspect? frozen = j.inspect? frozen := by
  induction i using Item.induction generalizing j with
  | step i ih =>
    cases h with
    | nothing => rfl
    | text htu => exact congrArg some htu.inspect
    | entity hid ho hp => exact inspect?_of_parts (.entity hid ho hp) fun p hp q hpq => ih p hp hpq
    | @list k l m hs hn hi =>
      have items : List.Forall₂ (Handle.Twin d k) l.items m.items := by simpa using hi
      have shown : l.items.mapM (k.inspect? frozen) = m.items.mapM (k.inspect? frozen) :=
        mapM_of_forall₂ (forall₂_of_mem items fun x hx y _ hxy => ih (.entity k x) (List.mem_map_of_mem hx) hxy)
      simp only [inspect?, shown]
    | @definition x y hid ho hp =>
      obtain ⟨id, v⟩ := x
      obtain ⟨_, w⟩ := y
      obtain rfl : id = _ := hid
      have twins : v.Twin d w := ⟨ho, hp⟩
      obtain ⟨hns, hname, hkind, haccess, hbases, hmethods, hattributes, hregion⟩ := Definition.twin_iff.mp twins
      have list {k : Kind} {l m : EntityList k.Carrier} {g : Handle k.Carrier → String} (hl : .list k l ∈ v.parts)
          (hlm : l.Twin d k m) (hg : ∀ x, k.inspect? frozen x = some (g x)) : l.inspectBy g = m.inspectBy g :=
        inspectBy_eq hg (ih _ hl hlm)
      have bases := list (by simp [Definition.parts]) hbases fun _ => rfl
      have methods := list (by simp [Definition.parts]) hmethods fun _ => rfl
      have attributes := list (by simp [Definition.parts]) hattributes fun _ => rfl
      simp only [inspect?, Definition.inspect, hns.inspect, hname.inspect, hkind, haccess, bases, methods, attributes,
        hregion.inspect]

end CodeModel
