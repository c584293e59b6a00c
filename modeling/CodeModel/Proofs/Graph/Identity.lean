import CodeModel.Intern.Fingerprint
import CodeModel.Proofs.Graph.Bare
import Mathlib.Logic.Relation

/-! Equality for interning relates entities with one outline whose parts are identical. -/

namespace CodeModel

namespace Item

inductive Alike : Item → Item → Prop
  | nothing : Alike nothing nothing
  | text {t u : Text} : t.id = u.id ∨ t.val = u.val → Alike (text t) (text u)
  | entity {k : Kind} {x y : Handle k.Carrier} : x.id = y.id → Alike (entity k x) (entity k y)
  | list {k : Kind} {l m : EntityList k.Carrier} : l.sameStorage m = true → Alike (list k l) (list k m)

/-- Items that equality for interning cannot tell apart: one item, or two empty lists. -/
inductive Matches : Item → Item → Prop
  | refl (i : Item) : Matches i i
  | empty {k : Kind} {l m : EntityList k.Carrier} :
      l.items = [] → m.items = [] → Matches (list k l) (list k m)

lemma Matches.symm {i j : Item} (h : Matches i j) : Matches j i := by
  cases h with
  | refl => exact .refl _
  | empty hl hm => exact .empty hm hl

lemma Matches.text_eq {t u : Text} (h : Matches (text t) (text u)) : t = u := by
  cases h
  rfl

lemma Matches.entity_eq {k : Kind} {x y : Handle k.Carrier} (h : Matches (entity k x) (entity k y)) :
    x = y := by
  cases h
  rfl

end Item

open Item

lemma EntityList.sameStorage_iff {α : Type} {l m : EntityList α} :
    l.sameStorage m = true ↔ l.identity = m.identity ∧ l.items.length = m.items.length := by
  simp [sameStorage, length]

lemma EntityList.sameStorage_cases {α : Type} {l m : EntityList α} (h : l.sameStorage m = true) :
    l.items = [] ∧ m.items = [] ∨ l.items ≠ [] ∧ m.items ≠ [] ∧ l.storage = m.storage := by
  obtain ⟨hid, hlen⟩ := sameStorage_iff.mp h
  by_cases hl : l.items = []
  · exact .inl ⟨hl, List.eq_nil_of_length_eq_zero (by simpa [hl] using hlen.symm)⟩
  · have hm : m.items ≠ [] := fun hm => hl (List.eq_nil_of_length_eq_zero (by simpa [hm] using hlen))
    exact .inr ⟨hl, hm, by simpa [identity, hl, hm] using hid⟩

lemma EntityList.sameStorage_refl {α : Type} (l : EntityList α) : l.sameStorage l = true := by
  simp [sameStorage]

lemma Item.Matches.sameStorage {k : Kind} {l m : EntityList k.Carrier} (h : Matches (.list k l) (.list k m)) :
    l.sameStorage m = true := by
  cases h with
  | refl => exact l.sameStorage_refl
  | empty hl hm => simp [EntityList.sameStorage_iff, EntityList.identity, hl, hm]

lemma EntityList.words_congr {α : Type} {l m : EntityList α} (h : l.sameStorage m = true) :
    l.words = m.words := by
  obtain ⟨hi, hl⟩ := sameStorage_iff.mp h
  simp [words, hi, length, hl]

lemma EntityList.sameStorage_words {α : Type} {l m : EntityList α} : l.sameStorage m = true ↔ l.words = m.words := by
  refine ⟨words_congr, fun h => ?_⟩
  obtain ⟨storage, length⟩ : l.identity.getD 0 = m.identity.getD 0 ∧ l.items.length = m.items.length := by
    simpa [words, EntityList.length] using h
  refine sameStorage_iff.mpr ⟨?_, length⟩
  by_cases hl : l.items = []
  · have hm : m.items = [] := List.eq_nil_of_length_eq_zero (by simpa [hl] using length.symm)
    simp [identity, hl, hm]
  · have hm : m.items ≠ [] := fun hm => hl (List.eq_nil_of_length_eq_zero (by simpa [hm] using length))
    simpa [identity, hl, hm] using storage

lemma Region.same_iff {r s : Region} :
    r.same s = true ↔ r.file.map Handle.val = s.file.map Handle.val ∧ r.start = s.start ∧ r.stop = s.stop := by
  simp [same, and_assoc]

lemma Region.same_alike {r s : Region} (h : r.same s = true) :
    r.outline = s.outline ∧ Alike r.part s.part := by
  obtain ⟨hf, hb, he⟩ := same_iff.mp h
  obtain ⟨f, b, e⟩ := r
  obtain ⟨g, c, d⟩ := s
  cases f <;> cases g <;> simp_all [outline, part]
  · exact .nothing
  · exact .text (.inr hf)

lemma Region.same_of_matches {r s : Region} (ho : r.outline = s.outline) (hp : Matches r.part s.part) :
    r.same s = true := by
  obtain ⟨f, b, e⟩ := r
  obtain ⟨g, c, d⟩ := s
  cases f <;> cases g <;> simp_all [outline, part, same_iff]
  rw [hp.text_eq]

lemma Literal.same_alike {l m : Literal} (h : l.same m = true) :
    l.outline = m.outline ∧ Alike l.part m.part := by
  cases l <;> cases m <;> simp_all [same, outline, part]
  all_goals first | exact .nothing | exact .text (.inl h)

lemma Literal.same_of_matches {l m : Literal} (ho : l.outline = m.outline) (hp : Matches l.part m.part) :
    l.same m = true := by
  cases l <;> cases m <;> simp_all [outline, part, same]
  rw [hp.text_eq]

lemma Attribute.sameNamed_alike {ns ms : List NamedArgument} (h : sameNamed ns ms = true) :
    ns.length = ms.length ∧
      List.Forall₂ Alike (ns.flatMap NamedArgument.parts) (ms.flatMap NamedArgument.parts) := by
  induction ns generalizing ms with
  | nil => cases ms <;> simp_all [sameNamed]
  | cons n ns ih =>
    cases ms with
    | nil => simp [sameNamed] at h
    | cons m ms =>
      simp only [sameNamed, Bool.and_eq_true, beq_iff_eq] at h
      obtain ⟨⟨hn, hv⟩, hs⟩ := h
      obtain ⟨hl, hp⟩ := ih hs
      exact ⟨by simp [hl], .cons (.text (.inl hn)) (.cons (.entity hv) hp)⟩

lemma Attribute.sameNamed_of_matches {ns ms : List NamedArgument}
    (hp : List.Forall₂ Matches (ns.flatMap NamedArgument.parts) (ms.flatMap NamedArgument.parts)) :
    sameNamed ns ms = true := by
  induction ns generalizing ms with
  | nil => cases ms <;> simp_all [sameNamed, NamedArgument.parts]
  | cons n ns ih =>
    cases ms with
    | nil => simp [NamedArgument.parts] at hp
    | cons m ms =>
      simp only [List.flatMap_cons, NamedArgument.parts, List.cons_append, List.nil_append,
        List.forall₂_cons] at hp
      obtain ⟨hn, hv, hs⟩ := hp
      simp [sameNamed, hn.text_eq, hv.entity_eq, ih hs]

lemma sameTexts_alike {ss ts : List Text} (h : sameTexts ss ts = true) :
    ss.length = ts.length ∧ List.Forall₂ Alike (ss.map .text) (ts.map .text) := by
  induction ss generalizing ts with
  | nil => cases ts <;> simp_all [sameTexts]
  | cons s ss ih =>
    cases ts with
    | nil => simp [sameTexts] at h
    | cons t ts =>
      simp only [sameTexts, Bool.and_eq_true, beq_iff_eq] at h
      obtain ⟨hl, hp⟩ := ih h.2
      exact ⟨by simp [hl], .cons (.text (.inl h.1)) hp⟩

lemma sameTexts_of_matches {ss ts : List Text} (hp : List.Forall₂ Matches (ss.map .text) (ts.map .text)) :
    sameTexts ss ts = true := by
  induction ss generalizing ts with
  | nil => cases ts <;> simp_all [sameTexts]
  | cons s ss ih =>
    cases ts with
    | nil => simp at hp
    | cons t ts =>
      simp only [List.map_cons, List.forall₂_cons] at hp
      simp [sameTexts, hp.1.text_eq, ih hp.2]

lemma sameTexts_iff {ss ts : List Text} : sameTexts ss ts = true ↔ ss.map Handle.id = ts.map Handle.id := by
  induction ss generalizing ts with
  | nil => cases ts <;> simp [sameTexts]
  | cons s ss ih => cases ts <;> simp [sameTexts, ih]

lemma Attribute.sameNamed_iff {ns ms : List NamedArgument} : sameNamed ns ms = true ↔
    ns.map (fun n => (n.name.id, n.value.id)) = ms.map (fun n => (n.name.id, n.value.id)) := by
  induction ns generalizing ms with
  | nil => cases ms <;> simp [sameNamed]
  | cons n ns ih => cases ms <;> simp [sameNamed, ih]

lemma Attribute.sameNamed_ids {ns ms : List NamedArgument} (h : sameNamed ns ms = true) :
    ns.flatMap (fun n => [n.name.id, n.value.id]) = ms.flatMap (fun n => [n.name.id, n.value.id]) := by
  induction ns generalizing ms with
  | nil => cases ms <;> simp_all [sameNamed]
  | cons n ns ih =>
    cases ms with
    | nil => simp [sameNamed] at h
    | cons m ms =>
      simp only [sameNamed, Bool.and_eq_true, beq_iff_eq] at h
      simp [h.1.1, h.1.2, ih h.2]

lemma Parameter.sameDefault_alike {c d : Option (Handle Constant)}
    (h : c.map Handle.id = d.map Handle.id) :
    (c.map fun _ => (⟨0, .null⟩ : Handle Constant)) = (d.map fun _ => ⟨0, .null⟩) ∧
      Alike (c.elim .nothing (.entity .constant)) (d.elim .nothing (.entity .constant)) := by
  cases c <;> cases d <;> simp_all
  · exact .nothing
  · exact .entity h

lemma Parameter.sameDefault_of_matches {c d : Option (Handle Constant)}
    (h : Matches (c.elim .nothing (.entity .constant)) (d.elim .nothing (.entity .constant))) :
    c.map Handle.id = d.map Handle.id := by
  cases c with
  | none =>
    cases d with
    | none => rfl
    | some => cases h
  | some =>
    cases d with
    | none => cases h
    | some => simp [h.entity_eq]

lemma Region.same_words {r s : Region} (h : r.same s = true) : r.words = s.words := by
  obtain ⟨hf, hb, he⟩ := same_iff.mp h
  obtain ⟨f, b, e⟩ := r
  obtain ⟨g, c, d⟩ := s
  cases f <;> cases g <;> simp_all [words]

lemma Literal.same_words {l m : Literal} (h : l.same m = true) : l.words = m.words := by
  cases l <;> cases m <;> simp_all [same, words]

lemma Literal.same_iff {l m : Literal} : l.same m = true ↔ l.words = m.words := by
  refine ⟨same_words, fun h => ?_⟩
  cases l <;> cases m <;> simp_all [same, words, UInt64.toNat_inj, Char.toNat_inj]
  case bool.bool a b => cases a <;> cases b <;> simp_all
  case int.int a b =>
    cases a
    cases b
    exact congrArg _ h

lemma TypeRef.same_iff {t u : TypeRef} : t.same u = true ↔ t.words = u.words := by
  cases t <;> cases u <;> simp [same, words, EntityList.sameStorage_words, UInt32.toNat_inj, and_assoc]

lemma equivalence_of_key {α β : Type} {same : α → α → Bool} (key : α → β)
    (h : ∀ a b, same a b = true ↔ key a = key b) : Equivalence fun a b => same a b = true := by
  simp only [h]
  exact eq_equivalence.comap key

lemma forall₂_snoc {R : Item → Item → Prop} {is js : List Item} {i j : Item} (h : List.Forall₂ R is js)
    (hij : R i j) : List.Forall₂ R (is ++ [i]) (js ++ [j]) :=
  List.rel_append h (.cons hij .nil)

lemma forall₂_of_snoc {R : Item → Item → Prop} {is js : List Item} {i j : Item}
    (h : List.Forall₂ R (is ++ [i]) (js ++ [j])) : List.Forall₂ R is js ∧ R i j := by
  induction is generalizing js with
  | nil =>
    cases js with
    | nil => simpa using h
    | cons => simp at h
  | cons k is ih =>
    cases js with
    | nil => simp at h
    | cons =>
      simp only [List.cons_append, List.forall₂_cons] at h
      exact ⟨.cons h.1 (ih h.2).1, (ih h.2).2⟩

namespace Kind

theorem same_alike {k : Kind} (hk : k.isModel = true) {v w : k.Carrier} (h : k.same v w = true) :
    k.outline v = k.outline w ∧ List.Forall₂ Alike (k.parts v) (k.parts w) := by
  cases k with
  | probe => simp [isModel] at hk
  | typeRef =>
    cases v <;> cases w <;> simp_all [same, TypeRef.same, outline, TypeRef.outline, parts, TypeRef.parts]
    · exact ⟨.text (.inl h.1.1), .text (.inl h.1.2), .list h.2⟩
    · exact .entity h.1
    · exact .entity h
  | constant =>
    simp only [same, Constant.same, Bool.and_eq_true, beq_iff_eq] at h
    obtain ⟨ho, hp⟩ := Literal.same_alike h.2
    exact ⟨by simp [outline, Constant.outline, ho], .cons (.entity h.1) (.cons hp .nil)⟩
  | attr =>
    simp only [same, Attribute.same, Bool.and_eq_true, beq_iff_eq] at h
    obtain ⟨⟨⟨ht, hl⟩, hn⟩, hr⟩ := h
    obtain ⟨hlen, hn⟩ := Attribute.sameNamed_alike hn
    obtain ⟨ho, hr⟩ := Region.same_alike hr
    refine ⟨?_, forall₂_snoc (.cons (.entity ht) (.cons (.list hl) hn)) hr⟩
    simp [outline, Attribute.outline, ho, hlen]
  | parameter =>
    simp only [same, Parameter.same, Bool.and_eq_true, beq_iff_eq] at h
    obtain ⟨⟨⟨⟨⟨hn, ht⟩, hl⟩, hd⟩, hr⟩, hf⟩ := h
    obtain ⟨ho, hr⟩ := Region.same_alike hr
    obtain ⟨hdo, hd⟩ := Parameter.sameDefault_alike hd
    exact ⟨by simp [outline, Parameter.outline, ho, hdo, hf],
      .cons (.text (.inl hn)) (.cons (.entity ht) (.cons (.list hl) (.cons hd (.cons hr .nil))))⟩
  | method =>
    simp only [same, Method.same, Bool.and_eq_true, beq_iff_eq] at h
    obtain ⟨⟨⟨⟨⟨⟨⟨hn, ht⟩, hps⟩, has⟩, hts⟩, ha⟩, hm⟩, hr⟩ := h
    obtain ⟨hlen, hts⟩ := sameTexts_alike hts
    obtain ⟨ho, hr⟩ := Region.same_alike hr
    refine ⟨?_, forall₂_snoc (.cons (.text (.inl hn)) (.cons (.entity ht) ?_)) hr⟩
    rotate_left
    · exact .cons (.list hps) (.cons (.list has) hts)
    simp [outline, Method.outline, ho, hlen, ha, hm]

theorem same_of_matches {k : Kind} {v w : k.Carrier} (ho : k.outline v = k.outline w)
    (hp : List.Forall₂ Matches (k.parts v) (k.parts w)) : k.same v w = true := by
  cases k with
  | probe series =>
    obtain ⟨g, t, c⟩ := v
    obtain ⟨h, u, d⟩ := w
    simp_all [same, Probe.same, outline, Probe.outline, Probe.tag]
  | typeRef =>
    cases v <;> cases w <;> simp_all [same, TypeRef.same, outline, TypeRef.outline, parts, TypeRef.parts]
    · exact ⟨⟨by rw [hp.1.text_eq], by rw [hp.2.1.text_eq]⟩, hp.2.2.sameStorage⟩
    · rw [hp.entity_eq]
    · rw [hp.entity_eq]
  | constant =>
    simp only [parts, Constant.parts, List.forall₂_cons] at hp
    simp only [outline, Constant.outline, Constant.mk.injEq] at ho
    simp [same, Constant.same, hp.1.entity_eq, Literal.same_of_matches ho.2 hp.2.1]
  | attr =>
    simp only [outline, Attribute.outline, Attribute.mk.injEq] at ho
    simp only [parts, Attribute.parts, List.cons_append, List.nil_append, List.forall₂_cons] at hp
    obtain ⟨ht, hl, hp⟩ := hp
    obtain ⟨hn, hr⟩ := forall₂_of_snoc hp
    simp [same, Attribute.same, ht.entity_eq, hl.sameStorage, Attribute.sameNamed_of_matches hn,
      Region.same_of_matches ho.2.2.2 hr]
  | parameter =>
    simp only [outline, Parameter.outline, Parameter.mk.injEq] at ho
    simp only [parts, Parameter.parts, List.forall₂_cons] at hp
    obtain ⟨hn, ht, hl, hd, hr, -⟩ := hp
    simp [same, Parameter.same, hn.text_eq, ht.entity_eq, hl.sameStorage, Parameter.sameDefault_of_matches hd,
      Region.same_of_matches ho.2.2.2.2.1 hr, ho.2.2.2.2.2]
  | method =>
    simp only [outline, Method.outline, Method.mk.injEq] at ho
    simp only [parts, Method.parts, List.cons_append, List.nil_append, List.forall₂_cons] at hp
    obtain ⟨hn, ht, hps, has, hp⟩ := hp
    obtain ⟨hts, hr⟩ := forall₂_of_snoc hp
    obtain ⟨-, -, -, -, -, ha, hm, ho⟩ := ho
    simp [same, Method.same, hn.text_eq, ht.entity_eq, hps.sameStorage, has.sameStorage,
      sameTexts_of_matches hts, ha, hm, Region.same_of_matches ho hr]

theorem same_equivalence : (k : Kind) → Equivalence fun v w => k.same v w = true
  | typeRef => equivalence_of_key TypeRef.words fun _ _ => TypeRef.same_iff
  | constant => equivalence_of_key Constant.words fun c d => by
    simp [same, Constant.same, Constant.words, Literal.same_iff]
  | attr => equivalence_of_key (fun a : Attribute => (a.type.id, a.positional.words,
      a.named.map (fun n => (n.name.id, n.value.id)), a.region.file.map Handle.val, a.region.start, a.region.stop))
    fun a b => by
      simp [same, Attribute.same, EntityList.sameStorage_words, Attribute.sameNamed_iff, Region.same_iff, and_assoc]
  | parameter => equivalence_of_key (fun p : Parameter => (p.name.id, p.type.id, p.attributes.words,
      p.default.map Handle.id, p.region.file.map Handle.val, p.region.start, p.region.stop, p.flags)) fun p q => by
    simp [same, Parameter.same, EntityList.sameStorage_words, Region.same_iff, and_assoc]
  | method => equivalence_of_key (fun m : Method => (m.name.id, m.returns.id, m.parameters.words, m.attributes.words,
      m.typeParameters.map Handle.id, m.accessibility, m.modifiers, m.region.file.map Handle.val, m.region.start,
      m.region.stop)) fun m n => by
    simp [same, Method.same, EntityList.sameStorage_words, sameTexts_iff, Region.same_iff, and_assoc]
  | probe _ => equivalence_of_key Probe.tag fun p q => by simp [same, Probe.same]

theorem same_words {k : Kind} (hk : k.isModel = true) {v w : k.Carrier} (h : k.same v w = true) :
    k.words v = k.words w := by
  cases k with
  | probe => simp [isModel] at hk
  | typeRef => exact congrArg (0 :: ·) (TypeRef.same_iff.mp h)
  | constant =>
    simp only [same, Constant.same, Bool.and_eq_true, beq_iff_eq] at h
    simp [words, Constant.words, h.1, Literal.same_words h.2]
  | attr =>
    simp only [same, Attribute.same, Bool.and_eq_true, beq_iff_eq] at h
    obtain ⟨⟨⟨ht, hl⟩, hn⟩, hr⟩ := h
    simp [words, Attribute.words, ht, EntityList.words_congr hl, (Attribute.sameNamed_alike hn).1,
      Attribute.sameNamed_ids hn, Region.same_words hr]
  | parameter =>
    simp only [same, Parameter.same, Bool.and_eq_true, beq_iff_eq] at h
    obtain ⟨⟨⟨⟨⟨hn, ht⟩, hl⟩, hd⟩, hr⟩, hf⟩ := h
    have hd : v.default.elim 0 (·.id + 1) = w.default.elim 0 (·.id + 1) := by
      cases hv : v.default <;> cases hw : w.default <;> simp_all
    simp [words, Parameter.words, hn, ht, EntityList.words_congr hl, hd, Region.same_words hr, hf]
  | method =>
    simp only [same, Method.same, Bool.and_eq_true, beq_iff_eq] at h
    obtain ⟨⟨⟨⟨⟨⟨⟨hn, ht⟩, hps⟩, has⟩, hts⟩, ha⟩, hm⟩, hr⟩ := h
    simp [words, Method.words, hn, ht, EntityList.words_congr hps, EntityList.words_congr has,
      (sameTexts_alike hts).1, sameTexts_iff.mp hts, ha, hm, Region.same_words hr]

end Kind

end CodeModel
