import CodeModel.Render.Display
import Mathlib.Data.List.Forall2
import Mathlib.Tactic.Lemma

/-! A text that is put together of parts can be taken apart again, in one way only. -/

namespace CodeModel

namespace Text

lemma word_unique {p : Char → Prop} {xs ys r s : List Char} (hx : ∀ c ∈ xs, p c) (hy : ∀ c ∈ ys, p c)
    (hr : ∀ c ∈ r.head?, ¬ p c) (hs : ∀ c ∈ s.head?, ¬ p c) (h : xs ++ r = ys ++ s) : xs = ys ∧ r = s := by
  induction xs generalizing ys with
  | nil =>
    cases ys with
    | nil => exact ⟨rfl, h⟩
    | cons y ys => exact absurd (hy y (by simp)) (hr y (by simp [show r = _ from h]))
  | cons x xs ih =>
    cases ys with
    | nil => exact absurd (hx x (by simp)) (hs x (by simp [← show _ = s from h]))
    | cons y ys =>
      obtain ⟨rfl, tail⟩ := List.cons.inj h
      obtain ⟨rfl, rest⟩ := ih (fun c hc => hx c (List.mem_cons_of_mem _ hc))
        (fun c hc => hy c (List.mem_cons_of_mem _ hc)) tail
      exact ⟨rfl, rest⟩

lemma flatMap_unique {α : Type} {f : α → List Char} {F : List Char → Prop}
    (code : ∀ a b r s, f a ++ r = f b ++ s → a = b ∧ r = s) (stop : ∀ a r, ¬ F (f a ++ r)) {xs ys : List α}
    {r s : List Char} (hr : F r) (hs : F s) (h : xs.flatMap f ++ r = ys.flatMap f ++ s) : xs = ys ∧ r = s := by
  induction xs generalizing ys with
  | nil =>
    cases ys with
    | nil => exact ⟨rfl, h⟩
    | cons y ys =>
      rw [List.flatMap_nil, List.nil_append, List.flatMap_cons, List.append_assoc] at h
      exact absurd (h ▸ hr) (stop y _)
  | cons x xs ih =>
    cases ys with
    | nil =>
      rw [List.flatMap_nil, List.nil_append, List.flatMap_cons, List.append_assoc] at h
      exact absurd (h ▸ hs) (stop x _)
    | cons y ys =>
      rw [List.flatMap_cons, List.flatMap_cons, List.append_assoc, List.append_assoc] at h
      obtain ⟨rfl, tail⟩ := code x y _ _ h
      obtain ⟨rfl, rest⟩ := ih tail
      exact ⟨rfl, rest⟩

section Digits

def IsDigit (c : Char) : Prop := ∃ n < 16, c = n.digitChar

lemma digitChar_inj {m n : Nat} (hm : m < 16) (hn : n < 16) (h : m.digitChar = n.digitChar) : m = n := by
  have all : ∀ m < 16, ∀ n < 16, m.digitChar = n.digitChar → m = n := by decide
  exact all m hm n hn h

lemma digits_isDigit {b : Nat} (hb : 1 < b) (hb' : b ≤ 16) (n : Nat) : ∀ c ∈ Nat.toDigits b n, IsDigit c := by
  induction n using Nat.strongRecOn with
  | ind n ih =>
    rw [Nat.toDigits_eq_if hb]
    split
    · rintro c hc
      exact ⟨n, by omega, List.mem_singleton.mp hc⟩
    · intro c hc
      rcases List.mem_append.mp hc with hc | hc
      · exact ih (n / b) (Nat.div_lt_self (by omega) hb) c hc
      · exact ⟨n % b, by have := Nat.mod_lt n (show 0 < b by omega); omega, List.mem_singleton.mp hc⟩

lemma digits_inj {b : Nat} (hb : 1 < b) (hb' : b ≤ 16) {m n : Nat} (h : Nat.toDigits b m = Nat.toDigits b n) :
    m = n := by
  have inner (m : Nat) : m % b < 16 := Nat.lt_of_lt_of_le (Nat.mod_lt m (by omega)) hb'
  induction m using Nat.strongRecOn generalizing n with
  | ind m ih =>
    rw [Nat.toDigits_eq_if hb, Nat.toDigits_eq_if hb (n := n)] at h
    split at h <;> split at h
    · exact digitChar_inj (by omega) (by omega) (List.cons.inj h).1
    · have length := congrArg List.length h
      have := Nat.length_toDigits_pos (b := b) (n := n / b)
      simp only [List.length_append, List.length_singleton] at length
      omega
    · have length := congrArg List.length h
      have := Nat.length_toDigits_pos (b := b) (n := m / b)
      simp only [List.length_append, List.length_singleton] at length
      omega
    · obtain ⟨quotients, remainders⟩ := List.append_inj' h rfl
      have hq := ih (m / b) (Nat.div_lt_self (by omega) hb) quotients
      have hr := digitChar_inj (inner m) (inner n) (List.cons.inj remainders).1
      rw [← Nat.div_add_mod m b, ← Nat.div_add_mod n b, hq, hr]

end Digits

end Text

section Listing

def EndsElement (close : Char) (r : List Char) : Prop := r.head? = some ',' ∨ r.head? = some close

lemma commaSeparated_one (p : String) : (commaSeparated [p]).toList = p.toList := by
  rw [commaSeparated, String.intercalate_singleton]

lemma commaSeparated_more (p q : String) (ps : List String) : (commaSeparated (p :: q :: ps)).toList =
    p.toList ++ ',' :: ' ' :: (commaSeparated (q :: ps)).toList := by
  rw [commaSeparated, String.intercalate_cons_cons]
  simp [commaSeparated]

variable {α : Type} {f : α → String} {R : α → α → Prop} {close : Char}

lemma commaSeparated_unique (hclose : close ≠ ',') {xs ys : List α} (hx : xs ≠ []) (hy : ys ≠ [])
    (read : ∀ x ∈ xs, ∀ y ∈ ys, ∀ r s, EndsElement close r → EndsElement close s →
      (f x).toList ++ r = (f y).toList ++ s → R x y ∧ r = s)
    {r s : List Char} (h : (commaSeparated (xs.map f)).toList ++ close :: r =
      (commaSeparated (ys.map f)).toList ++ close :: s) : List.Forall₂ R xs ys ∧ r = s := by
  have last (t : List Char) : EndsElement close (close :: t) := .inr rfl
  have inner (t : List Char) : EndsElement close (',' :: t) := .inl rfl
  induction xs generalizing ys with
  | nil => exact absurd rfl hx
  | cons x xs ih =>
    obtain ⟨y, ys, rfl⟩ := List.exists_cons_of_ne_nil hy
    have first := read x (by simp) y (by simp)
    cases xs with
    | nil =>
      cases ys with
      | nil =>
        simp only [List.map_cons, List.map_nil, commaSeparated_one] at h
        obtain ⟨hxy, rest⟩ := first _ _ (last r) (last s) h
        exact ⟨.cons hxy .nil, (List.cons.inj rest).2⟩
      | cons y' ys =>
        simp only [List.map_cons, List.map_nil, commaSeparated_one, commaSeparated_more, List.append_assoc] at h
        obtain ⟨-, rest⟩ := first _ _ (last r) (inner _) h
        exact absurd (List.cons.inj rest).1 hclose
    | cons x' xs =>
      cases ys with
      | nil =>
        simp only [List.map_cons, List.map_nil, commaSeparated_one, commaSeparated_more, List.append_assoc] at h
        obtain ⟨-, rest⟩ := first _ _ (inner _) (last s) h
        exact absurd (List.cons.inj rest).1.symm hclose
      | cons y' ys =>
        simp only [List.map_cons, commaSeparated_more, List.append_assoc] at h
        obtain ⟨hxy, rest⟩ := first _ _ (inner _) (inner _) h
        have tail := ih (List.cons_ne_nil x' xs) (List.cons_ne_nil y' ys)
          (fun x hx y hy => read x (List.mem_cons_of_mem _ hx) y (List.mem_cons_of_mem _ hy))
          (by simpa using rest)
        exact ⟨.cons hxy tail.1, tail.2⟩

end Listing

end CodeModel
