import CodeModel.Session.State
import Mathlib.Data.List.Basic
import Mathlib.Tactic.Lemma

namespace CodeModel

variable {α : Type} {name other : String} {a c : α} {b : String × α} {bs : List (String × α)}

def BoundOnce (bs : List (String × α)) : Prop := (bs.map Prod.fst).Nodup

lemma lookup_cons_other (h : other ≠ name) : ((name, a) :: bs).lookup other = bs.lookup other := by
  simp [List.lookup_cons, beq_eq_false_iff_ne.mpr h]

lemma mem_of_lookup (h : bs.lookup name = some a) : (name, a) ∈ bs := by
  obtain ⟨before, after, rfl, -⟩ := List.lookup_eq_some_iff.mp h
  simp

lemma lookup_of_mem (hb : BoundOnce bs) (h : (name, a) ∈ bs) : bs.lookup name = some a := by
  induction bs with
  | nil => simp at h
  | cons c bs ih =>
    obtain ⟨n, d⟩ := c
    simp only [BoundOnce, List.map_cons, List.nodup_cons] at hb
    rcases List.mem_cons.mp h with h | h
    · simp_all
    · have ne : name ≠ n := fun he => hb.1 (List.mem_map.mpr ⟨(name, a), h, he⟩)
      rw [lookup_cons_other ne]
      exact ih hb.2 h

lemma mem_unassign : b ∈ unassign name bs ↔ b ∈ bs ∧ b.1 ≠ name := by simp [unassign]

lemma BoundOnce.unassign (hb : BoundOnce bs) : BoundOnce (unassign name bs) :=
  List.Nodup.sublist (List.filter_sublist.map _) hb

lemma mem_of_mem_assign (h : b ∈ assign name a bs) : b = (name, a) ∨ b ∈ bs := by
  induction bs with
  | nil => simpa [assign] using h
  | cons c bs ih =>
    rw [assign] at h
    split at h <;> grind

lemma mem_assign (hb : BoundOnce bs) : b ∈ assign name a bs ↔ b = (name, a) ∨ b ∈ bs ∧ b.1 ≠ name := by
  induction bs with
  | nil => simp [assign]
  | cons c bs ih =>
    obtain ⟨n, d⟩ := c
    simp only [BoundOnce, List.map_cons, List.nodup_cons] at hb
    by_cases hn : n = name
    · subst hn
      have ne : b ∈ bs → b.1 ≠ n := fun h he => hb.1 (List.mem_map.mpr ⟨b, h, he⟩)
      simp only [assign, beq_self_eq_true, if_true, List.mem_cons]
      grind
    · simp only [assign, beq_iff_eq, hn, if_false, List.mem_cons, ih hb.2]
      grind

lemma BoundOnce.assign (hb : BoundOnce bs) : BoundOnce (assign name a bs) := by
  induction bs with
  | nil => simp [BoundOnce, CodeModel.assign]
  | cons c bs ih =>
    obtain ⟨n, d⟩ := c
    have hbs := hb
    simp only [BoundOnce, List.map_cons, List.nodup_cons] at hbs
    by_cases hn : n = name
    · subst hn
      simpa [BoundOnce, CodeModel.assign] using hbs
    · have tail := ih hbs.2
      simp only [CodeModel.assign, beq_iff_eq, hn, if_false, BoundOnce, List.map_cons, List.nodup_cons]
      refine ⟨fun hm => ?_, tail⟩
      obtain ⟨e, he, heq⟩ := List.mem_map.mp hm
      rcases (mem_assign hbs.2).mp he with rfl | he
      · exact hn heq.symm
      · exact hbs.1 (List.mem_map.mpr ⟨e, he.1, heq⟩)

lemma lookup_assign_self : (assign name a bs).lookup name = some a := by
  induction bs with
  | nil => simp [assign]
  | cons c bs ih =>
    obtain ⟨n, d⟩ := c
    by_cases hn : n = name
    · simp [assign, hn]
    · rw [assign, if_neg (by simpa using hn), lookup_cons_other (Ne.symm hn), ih]

lemma lookup_assign_other (h : other ≠ name) : (assign name a bs).lookup other = bs.lookup other := by
  induction bs with
  | nil => exact lookup_cons_other h
  | cons c bs ih =>
    obtain ⟨n, d⟩ := c
    by_cases hn : n = name
    · simp [assign, hn, lookup_cons_other h]
    · simp [assign, hn, List.lookup_cons, ih]

lemma lookup_unassign_other (h : other ≠ name) : (unassign name bs).lookup other = bs.lookup other := by
  induction bs with
  | nil => rfl
  | cons c bs ih =>
    obtain ⟨n, d⟩ := c
    by_cases hn : n = name
    · subst hn
      rw [lookup_cons_other h, ← ih]
      simp [unassign]
    · have kept : unassign name ((n, d) :: bs) = (n, d) :: unassign name bs := by simp [unassign, hn]
      rw [kept, List.lookup_cons, List.lookup_cons, ih]

lemma assign_same (h : bs.lookup name = some a) : assign name a bs = bs := by
  induction bs with
  | nil => cases h
  | cons c bs ih =>
    obtain ⟨n, d⟩ := c
    by_cases hn : n = name
    · subst hn
      obtain rfl : d = a := by simpa using h
      simp [assign]
    · rw [lookup_cons_other (Ne.symm hn)] at h
      simp [assign, hn, ih h]

end CodeModel
