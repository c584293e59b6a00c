import CodeModel.Proofs.Graph.Marking
import CodeModel.Proofs.Graph.Places
import Mathlib.Algebra.GroupWithZero.Nat
import Mathlib.Algebra.Order.BigOperators.Group.List
import Mathlib.Algebra.Order.Group.Nat
import Mathlib.Data.Option.Basic
import Mathlib.Logic.Relation

/-! An item is larger than each of its parts, so a recursion from items to their parts ends. -/

namespace CodeModel

namespace Item

def size (i : Item) : Nat := i.preorder.length

lemma size_eq (i : Item) : i.size = 1 + (i.parts.map size).sum := by
  have below : (i.parts.flatMap preorder).length = (i.parts.map size).sum := List.length_flatMap
  rw [size, preorder_eq, List.length_cons, below, Nat.add_comm]

theorem size_part {i p : Item} (hp : p ∈ i.parts) : p.size < i.size := by
  have below : p.size ≤ (i.parts.map size).sum := List.single_le_sum (by simp) _ (List.mem_map_of_mem hp)
  rw [size_eq i]
  omega

lemma size_bare (i : Item) : i.bare.size = i.size := by
  induction i using Item.induction with
  | step i ih =>
    have parts : (i.parts.map bare).map size = i.parts.map size := by
      rw [List.map_map]
      exact List.map_congr_left ih
    rw [size_eq, parts_bare, parts, ← size_eq]

def shown : Item → List (Option String)
  | nothing => []
  | text t => [some t.val]
  | entity k x => [k.display? x.val]
  | list k l => l.items.map fun x => k.display? x.val
  | definition d => [some d.val.display]

end Item

/-- Among the items of `P` one labelled `a` has an object labelled `b` as a child or as the element of a list. -/
def Linked (P : Item → Prop) (a b : Nat) : Prop :=
  ∃ i p, P i ∧ i.label? = some a ∧ p.label? = some b ∧
    (p ∈ i.parts ∨ ∃ l ∈ i.parts, l.label? = none ∧ p ∈ l.parts)

namespace Store

variable {σ : Store} {P : Item → Prop} {a b : Nat}

def size (σ : Store) (id : Nat) : Nat := (σ.object id).elim 0 Item.size

lemma size_eq {i : Item} (hi : σ.Fits i) (ha : i.label? = some a) : σ.size a = i.size := by
  simp [size, hi.object (.refl i) ha]

theorem size_linked (hP : ∀ i, P i → σ.Fits i) (h : Linked P a b) : σ.size b < σ.size a := by
  obtain ⟨i, p, hi, ha, hb, hp⟩ := h
  have fits := hP i hi
  rcases hp with hp | ⟨l, hl, -, hp⟩
  · rw [size_eq fits ha, size_eq (fits.part hp) hb]
    exact Item.size_part hp
  · rw [size_eq fits ha, size_eq ((fits.part hl).part hp) hb]
    exact (Item.size_part hp).trans (Item.size_part hl)

theorem not_linked_self (hP : ∀ i, P i → σ.Fits i) : ¬ Relation.TransGen (Linked P) a a := by
  intro h
  have smaller {b c : Nat} (h : Relation.TransGen (Linked P) b c) : σ.size c < σ.size b := by
    induction h with
    | single h => exact size_linked hP h
    | tail _ h ih => exact (size_linked hP h).trans ih
  exact lt_irrefl _ (smaller h)

end Store

section Display

lemma map_of_shown {α : Type} {f : α → String} {xs ys : List α}
    (h : xs.map (fun x => some (f x)) = ys.map fun y => some (f y)) : xs.map f = ys.map f := by
  refine (Option.some_injective String).list_map ?_
  simpa [Function.comp_def] using h

lemma TypeRef.display_congr {t u : TypeRef} (ho : t.outline = u.outline)
    (hp : t.parts.map Item.shown = u.parts.map Item.shown) : t.display = u.display := by
  cases t with
  | named ns name args =>
    cases u with
    | named ns' name' args' =>
      simp only [parts, List.map_cons, Item.shown, List.cons.injEq, Option.some.injEq, and_true] at hp
      have texts : args.items.map (·.val.display) = args'.items.map (·.val.display) := map_of_shown hp.2.2
      have empty : args.items = [] ↔ args'.items = [] := by simpa using congrArg (· = []) texts
      simp [display, displayAll_eq, hp.1, hp.2.1, texts, empty]
    | _ => simp [outline] at ho
  | _ => cases u <;> simp_all [outline, parts, Item.shown, display, Kind.display?]

lemma Constant.display_congr {c d : Constant} (ho : c.outline = d.outline)
    (hp : c.parts.map Item.shown = d.parts.map Item.shown) : c.display = d.display := by
  obtain ⟨t, l⟩ := c
  obtain ⟨u, m⟩ := d
  cases l <;> cases m <;> simp_all [outline, Literal.outline, parts, Literal.part, Item.shown, display,
    Literal.display]

lemma NamedArgument.display_congr {ns ms : List NamedArgument}
    (h : (ns.flatMap parts).map Item.shown = (ms.flatMap parts).map Item.shown) (hl : ns.length = ms.length) :
    ns.map (fun n => n.name.val ++ " = " ++ n.value.val.display) =
      ms.map fun n => n.name.val ++ " = " ++ n.value.val.display := by
  induction ns generalizing ms with
  | nil => simp [List.length_eq_zero_iff.mp hl.symm]
  | cons n ns ih =>
    cases ms with
    | nil => simp at hl
    | cons m ms =>
      simp only [List.flatMap_cons, parts, List.map_cons, List.cons_append, List.nil_append, List.cons.injEq, Item.shown,
        Kind.display?, Option.some.injEq, and_true] at h
      simp [h.1, h.2.1, ih h.2.2 (by simpa using hl)]

lemma Attribute.display_congr {a b : Attribute} (ho : a.outline = b.outline)
    (hp : a.parts.map Item.shown = b.parts.map Item.shown) : a.display = b.display := by
  simp only [parts, List.map_append, List.map_cons, List.map_nil] at hp
  obtain ⟨hp, -⟩ := List.append_inj' hp rfl
  simp only [List.cons_append, List.nil_append, List.cons.injEq, Item.shown, Kind.display?, Option.some.injEq,
    and_true] at hp
  have values : a.positional.items.map (·.val.display) = b.positional.items.map (·.val.display) :=
    map_of_shown hp.2.1
  have length : a.named.length = b.named.length := by
    simpa [outline] using congrArg (·.named.length) ho
  simp only [display, hp.1, values, NamedArgument.display_congr hp.2.2 length]

lemma Parameter.display_congr {p q : Parameter} (ho : p.outline = q.outline)
    (hp : p.parts.map Item.shown = q.parts.map Item.shown) : p.display = q.display := by
  obtain ⟨n, t, as, c, r, f⟩ := p
  obtain ⟨m, u, bs, d, s, g⟩ := q
  cases c <;> cases d <;> simp_all [outline, parts, Item.shown, display, Kind.display?]

lemma Method.display_congr {m n : Method} (hp : m.parts.map Item.shown = n.parts.map Item.shown) :
    m.display = n.display := by
  simp only [parts, List.map_append, List.map_cons, List.map_nil] at hp
  obtain ⟨hp, -⟩ := List.append_inj' hp rfl
  simp only [List.cons_append, List.nil_append, List.cons.injEq, Item.shown, Kind.display?, Option.some.injEq,
    and_true, List.map_map] at hp
  have parameters : m.parameters.items.map (·.val.display) = n.parameters.items.map (·.val.display) :=
    map_of_shown hp.2.2.1
  have names : m.typeParameters.map (·.val) = n.typeParameters.map (·.val) := by
    have injective : Function.Injective fun v : String => [some v] := fun v w h => by simpa using h
    refine injective.list_map ?_
    simpa [Function.comp_def, Item.shown] using hp.2.2.2.2
  have empty : m.typeParameters = [] ↔ n.typeParameters = [] := by simpa using congrArg (· = []) names
  simp [display, hp.1, hp.2.1, parameters, names, empty]

theorem Kind.display_congr (k : Kind) {v w : k.Carrier} (ho : k.outline v = k.outline w)
    (hp : (k.parts v).map Item.shown = (k.parts w).map Item.shown) : k.display? v = k.display? w := by
  cases k with
  | typeRef => exact congrArg some (TypeRef.display_congr ho hp)
  | constant => exact congrArg some (Constant.display_congr ho hp)
  | attr => exact congrArg some (Attribute.display_congr ho hp)
  | parameter => exact congrArg some (Parameter.display_congr ho hp)
  | method => exact congrArg some (Method.display_congr hp)
  | probe _ => rfl

end Display

end CodeModel
