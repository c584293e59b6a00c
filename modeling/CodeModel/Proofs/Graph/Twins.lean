import CodeModel.Proofs.Graph.Marking
import CodeModel.Proofs.Graph.Places
import CodeModel.Session.Build

/-! What a session holds in one run, and in its place in a run without the seeding of a provider. -/

namespace CodeModel

structure Seeding where
  name : String
  number : Nat
  label : Nat

def Seeding.texts (d : Seeding) : List Text :=
  (TextPool.commonTexts.zipIdx d.label).map fun p => ⟨p.2, p.1⟩

/-- The texts of one place: the same handle, unless the seeded run has one that seeding put into a pool. -/
def Text.Twin (d : Seeding) (t u : Text) : Prop := t.val = u.val ∧ (t.id = u.id ∨ t ∈ d.texts)

inductive Item.Twin (d : Seeding) : Item → Item → Prop
  | nothing : Twin d nothing nothing
  | text {t u : Text} : t.Twin d u → Twin d (text t) (text u)
  | entity {k : Kind} {x y : Handle k.Carrier} : x.id = y.id → k.outline x.val = k.outline y.val →
      List.Forall₂ (Twin d) (k.parts x.val) (k.parts y.val) → Twin d (entity k x) (entity k y)
  | list {k : Kind} {l m : EntityList k.Carrier} : l.sealed = m.sealed → l.storage = m.storage →
      List.Forall₂ (Twin d) (l.items.map (.entity k)) (m.items.map (.entity k)) → Twin d (list k l) (list k m)
  | definition {x y : Handle Definition} : x.id = y.id → x.val.outline = y.val.outline →
      List.Forall₂ (Twin d) x.val.parts y.val.parts → Twin d (definition x) (definition y)

abbrev Handle.Twin (d : Seeding) (k : Kind) (x y : Handle k.Carrier) : Prop :=
  Item.Twin d (.entity k x) (.entity k y)

abbrev EntityList.Twin (d : Seeding) (k : Kind) (l m : EntityList k.Carrier) : Prop :=
  Item.Twin d (.list k l) (.list k m)

def Kind.Twin (d : Seeding) (k : Kind) (v w : k.Carrier) : Prop :=
  k.outline v = k.outline w ∧ List.Forall₂ (Item.Twin d) (k.parts v) (k.parts w)

def Definition.Twin (d : Seeding) (v w : Definition) : Prop :=
  v.outline = w.outline ∧ List.Forall₂ (Item.Twin d) v.parts w.parts

variable {d : Seeding} {i j p q a b : Item} {is js : List Item} {k : Kind} {t u : Text}

lemma Text.Twin.refl (t : Text) : t.Twin d t := ⟨rfl, .inl rfl⟩

section Rows

variable {α β γ : Type} {R S : α → β → Prop} {as : List α} {bs : List β}

lemma map_of_forall₂ {f : α → γ} {g : β → γ} (h : List.Forall₂ (fun a b => f a = g b) as bs) :
    as.map f = bs.map g := by
  rwa [← List.forall₂_eq_eq_eq, List.forall₂_map_left_iff, List.forall₂_map_right_iff]

lemma forall₂_of_mem (h : List.Forall₂ R as bs) (hS : ∀ a ∈ as, ∀ b ∈ bs, R a b → S a b) : List.Forall₂ S as bs := by
  induction h with
  | nil => exact .nil
  | cons hab _ ih =>
    simp only [List.mem_cons, forall_eq_or_imp] at hS
    exact .cons (hS.1.1 hab) (ih fun a ha b hb => (hS.2 a ha).2 b hb)

lemma exists_of_mem {a : α} (h : List.Forall₂ R as bs) (ha : a ∈ as) : ∃ b ∈ bs, R a b := by
  obtain ⟨n, hn, rfl⟩ := List.getElem_of_mem ha
  have hn' : n < bs.length := h.length_eq ▸ hn
  exact ⟨bs[n], List.getElem_mem hn', h.get hn hn'⟩

lemma rel_cases {a : Option α} {b : Option β} (h : Option.Rel R a b) :
    a = none ∧ b = none ∨ ∃ x y, a = some x ∧ b = some y ∧ R x y := by
  cases h with
  | none => exact .inl ⟨rfl, rfl⟩
  | some hab => exact .inr ⟨_, _, rfl, rfl, hab⟩

lemma rel_getElem? (h : List.Forall₂ R as bs) (n : Nat) : Option.Rel R as[n]? bs[n]? := by
  induction h generalizing n with
  | nil => exact .none
  | cons hab _ ih =>
    cases n with
    | zero => exact .some hab
    | succ n => exact ih n

lemma rel_filter_eq {f : α → Bool} {g : β → Bool} (h : List.Forall₂ R as bs) (hfg : ∀ a b, R a b → f a = g b) :
    List.Forall₂ R (as.filter f) (bs.filter g) := by
  induction h with
  | nil => exact .nil
  | cons hab _ ih =>
    rw [List.filter_cons, List.filter_cons, hfg _ _ hab]
    split
    · exact .cons hab ih
    · exact ih

end Rows

lemma markAll_congr (h : List.Forall₂ (fun i j => ∀ m, i.mark m = j.mark m) is js) (m : Marks) :
    markAll is m = markAll js m := by
  induction h generalizing m with
  | nil => rfl
  | cons hij _ ih => rw [markAll_cons, markAll_cons, hij, ih]

namespace Item

@[simp] lemma twin_nothing : Twin d nothing j ↔ j = nothing := by
  constructor
  · intro h
    cases h
    rfl
  · rintro rfl
    exact .nothing

@[simp] lemma twin_text : Twin d (text t) (text u) ↔ t.Twin d u :=
  ⟨fun h => by cases h; assumption, .text⟩

lemma twin_entity {x y : Handle k.Carrier} :
    Twin d (entity k x) (entity k y) ↔ x.id = y.id ∧ k.Twin d x.val y.val := by
  constructor
  · intro h
    cases h with
    | entity hid ho hp => exact ⟨hid, ho, hp⟩
  · rintro ⟨hid, ho, hp⟩
    exact .entity hid ho hp

lemma twin_list {l m : EntityList k.Carrier} : Twin d (list k l) (list k m) ↔
    l.sealed = m.sealed ∧ l.storage = m.storage ∧ List.Forall₂ (Handle.Twin d k) l.items m.items := by
  constructor
  · intro h
    cases h with
    | list hs hn hi => exact ⟨hs, hn, by simpa using hi⟩
  · rintro ⟨hs, hn, hi⟩
    exact .list hs hn (by simpa using hi)

lemma twin_definition {x y : Handle Definition} :
    Twin d (definition x) (definition y) ↔ x.id = y.id ∧ x.val.Twin d y.val := by
  constructor
  · intro h
    cases h with
    | definition hid ho hp => exact ⟨hid, ho, hp⟩
  · rintro ⟨hid, ho, hp⟩
    exact .definition hid ho hp

namespace Twin

lemma refl (i : Item) : Twin d i i := by
  induction i using Item.induction with
  | step i ih =>
    have parts : List.Forall₂ (Twin d) i.parts i.parts := List.forall₂_same.mpr ih
    cases i with
    | nothing => exact .nothing
    | text t => exact .text (.refl t)
    | entity => exact .entity rfl rfl parts
    | list => exact .list rfl rfl parts
    | definition => exact .definition rfl rfl parts

lemma parts (h : Twin d i j) : List.Forall₂ (Twin d) i.parts j.parts := by
  cases h with
  | nothing | text => exact .nil
  | entity _ _ hp | list _ _ hp | definition _ _ hp => exact hp

theorem value (h : Twin d i j) : i.bare = j.bare := by
  induction i using Item.induction generalizing j with
  | step i ih =>
    have parts : i.parts.map bare = j.parts.map bare :=
      map_of_forall₂ (forall₂_of_mem h.parts fun p hp q _ hpq => ih p hp hpq)
    cases h with
    | nothing => rfl
    | text h => simp [Text.bare, h.1]
    | entity _ ho => simp [Handle.bare, Kind.bare_congr ho parts]
    | @list k l m =>
      have injective : Function.Injective (Item.entity k) := fun x y h => by simpa using h
      have items : l.items.map (Handle.bare k.bare) = m.items.map (Handle.bare k.bare) :=
        injective.list_map (by simpa [Function.comp_def] using parts)
      simp [EntityList.bare, items]
    | definition _ ho => simp [Item.bare, Handle.bare, Definition.bare_congr ho parts]

lemma display (h : Twin d i j) : i.display? = j.display? := by
  rw [← display_bare, h.value, display_bare]

theorem mark (h : Twin d i j) (m : Marks) : i.mark m = j.mark m := by
  induction i using Item.induction generalizing j m with
  | step i ih =>
    have below : markAll i.parts = markAll j.parts :=
      funext (markAll_congr (forall₂_of_mem h.parts fun p hp q _ hpq => ih p hp hpq))
    cases h with
    | nothing | text => rfl
    | entity hid => rw [mark_entity, mark_entity, hid, ← parts_entity, below, parts_entity]
    | list => rw [mark_list, mark_list, ← parts_list, below, parts_list]
    | definition hid => rw [mark_definition, mark_definition, hid, ← parts_definition, below, parts_definition]

end Twin

lemma markAll_twins (h : List.Forall₂ (Twin d) is js) : markAll is = markAll js :=
  funext (markAll_congr (h.imp fun _ _ h => h.mark))

lemma ids_of_twins {xs ys : List (Handle k.Carrier)} (h : List.Forall₂ (Handle.Twin d k) xs ys) :
    xs.map Handle.id = ys.map Handle.id :=
  map_of_forall₂ (h.imp fun _ _ h => (twin_entity.mp h).1)

end Item

end CodeModel
