import CodeModel.Proofs.Graph.Parts
import Mathlib.Order.Nat

namespace CodeModel

namespace Kind

def rank : Kind → Nat
  | probe _ => 0
  | typeRef => 1
  | constant => 2
  | attr => 3
  | parameter => 4
  | method => 5

end Kind

namespace Item

def rank : Item → Nat
  | entity k _ | list k _ => k.rank
  | definition _ => 6
  | _ => 0

@[simp] lemma rank_entity (k : Kind) (x : Handle k.Carrier) : (entity k x).rank = k.rank := rfl

@[simp] lemma rank_list (k : Kind) (l : EntityList k.Carrier) : (list k l).rank = k.rank := rfl

@[simp] lemma rank_text (t : Text) : (text t).rank = 0 := rfl

@[simp] lemma rank_definition (d : Handle Definition) : (definition d).rank = 6 := rfl

@[simp] lemma rank_nothing : nothing.rank = 0 := rfl

@[simp] lemma rank_literal (l : Literal) : l.part.rank = 0 := by cases l <;> rfl

@[simp] lemma rank_region (r : Region) : r.part.rank = 0 := by
  cases h : r.file <;> simp [Region.part, h, rank]

lemma rank_default (c : Option (Handle Constant)) : (c.elim .nothing (entity .constant)).rank ≤ 2 := by
  cases c <;> simp [rank, Kind.rank]

lemma rank_named {ns : List NamedArgument} {p : Item} (h : p ∈ ns.flatMap NamedArgument.parts) : p.rank ≤ 2 := by
  obtain ⟨n, -, hp⟩ := List.mem_flatMap.mp h
  simp only [NamedArgument.parts, List.mem_cons, List.not_mem_nil, or_false] at hp
  rcases hp with rfl | rfl <;> simp [rank, Kind.rank]

lemma rank_texts {ts : List Text} {p : Item} (h : p ∈ ts.map .text) : p.rank = 0 := by
  obtain ⟨t, -, rfl⟩ := List.mem_map.mp h
  rfl

end Item

open Item

lemma Kind.rank_parts (k : Kind) (v : k.Carrier) (p : Item) (hp : p ∈ k.parts v) :
    p.rank < k.rank ∨ k.rank < 2 ∧ p.rank ≤ k.rank := by
  cases k with
  | typeRef =>
    refine .inr ⟨by simp [rank], ?_⟩
    cases v <;> simp only [parts, TypeRef.parts, List.mem_cons, List.not_mem_nil, or_false] at hp
    · rcases hp with rfl | rfl | rfl <;> simp [rank]
    · rw [hp]
      exact le_rfl
    · rw [hp]
      exact le_rfl
  | constant =>
    simp only [parts, Constant.parts, List.mem_cons, List.not_mem_nil, or_false] at hp
    rcases hp with rfl | rfl <;> simp [rank]
  | attr =>
    simp only [parts, Attribute.parts, List.mem_append, List.mem_cons, List.not_mem_nil, or_false] at hp
    rcases hp with ((rfl | rfl) | hp) | rfl
    · simp [rank]
    · simp [rank]
    · exact .inl (Nat.lt_succ_of_le (rank_named hp))
    · simp [rank]
  | parameter =>
    simp only [parts, Parameter.parts, List.mem_cons, List.not_mem_nil, or_false] at hp
    rcases hp with rfl | rfl | rfl | rfl | rfl
    · simp [rank]
    · simp [rank]
    · simp [rank]
    · exact .inl ((rank_default _).trans_lt (by simp [rank]))
    · simp [rank]
  | method =>
    simp only [parts, Method.parts, List.mem_append, List.mem_cons, List.not_mem_nil, or_false] at hp
    rcases hp with ((rfl | rfl | rfl | rfl) | hp) | rfl
    · simp [rank]
    · simp [rank]
    · simp [rank]
    · simp [rank]
    · simp [rank_texts hp, rank]
    · simp [rank]
  | probe series =>
    refine .inr ⟨by simp [rank], ?_⟩
    obtain ⟨hash, tag, _ | x⟩ := v <;> simp_all [parts, Probe.parts, rank]

lemma Definition.rank_parts (d : Definition) (p : Item) (hp : p ∈ d.parts) : p.rank < 6 := by
  simp only [parts, List.mem_cons, List.not_mem_nil, or_false] at hp
  rcases hp with rfl | rfl | rfl | rfl | rfl | rfl <;> simp [Kind.rank]

lemma Item.rank_part_lt {i p : Item} (hp : p ∈ i.parts) : p.rank < 6 := by
  have bound (k : Kind) : k.rank < 6 := by cases k <;> simp [Kind.rank]
  cases i with
  | nothing | text => simp at hp
  | list k l =>
    obtain ⟨x, -, rfl⟩ := List.mem_map.mp hp
    exact bound k
  | entity k x =>
    rcases k.rank_parts x.val p hp with h | h
    · exact h.trans (bound k)
    · exact h.2.trans_lt (bound k)
  | definition d => exact d.val.rank_parts p hp

lemma Item.rank_within {i j : Item} (h : Within j i) : j.rank ≤ i.rank := by
  induction h with
  | refl => exact le_rfl
  | @part p i hp _ ih =>
    refine ih.trans ?_
    cases i with
    | nothing | text => simp at hp
    | list k l =>
      obtain ⟨x, -, rfl⟩ := List.mem_map.mp hp
      exact le_rfl
    | entity k x =>
      rcases k.rank_parts x.val p hp with h | h
      · exact h.le
      · exact h.2
    | definition d => exact (d.val.rank_parts p hp).le

lemma Item.part_ne_definition {i p : Item} (hp : p ∈ i.parts) (d : Handle Definition) : p ≠ .definition d := by
  rintro rfl
  exact absurd (rank_part_lt hp) (lt_irrefl 6)

end CodeModel
