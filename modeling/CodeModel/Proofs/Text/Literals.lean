import CodeModel.Proofs.Graph.Bare
import CodeModel.Proofs.Text.Escapes

namespace CodeModel

open Text

namespace Literal

def isFloat : Literal → Bool
  | float _ => true
  | _ => false

def integer? : Literal → Option Int
  | int n => some n.toInt
  | uint n => some n.toNat
  | _ => none

def quote? : Literal → Option Char
  | char _ => some '\''
  | string _ => some '"'
  | _ => none

def Alike (l m : Literal) : Prop := l.bare = m.bare ∨ ∃ n, l.integer? = some n ∧ m.integer? = some n

end Literal

def IsWordChar (c : Char) : Prop := c ∉ [',', ')', ' ', '\'', '"']

def IsWord (w : List Char) : Prop := ∀ c ∈ w, IsWordChar c

section Words

lemma IsWordChar.not_isQuote {c : Char} (h : IsWordChar c) : ¬ IsQuote c := by
  rintro (rfl | rfl) <;> exact absurd h (by simp [IsWordChar])

lemma IsWord.head_ne {w r t : List Char} {q : Char} (hw : IsWord w) (hr : ∀ c ∈ r.head?, ¬ IsQuote c)
    (hq : IsQuote q) : w ++ r ≠ q :: t := by
  rintro h
  cases w with
  | nil => exact hr q (by simp [show r = _ from h]) hq
  | cons c w => exact (hw c (by simp)).not_isQuote ((List.cons.inj h).1 ▸ hq)

lemma Text.IsDigit.isWordChar {c : Char} (h : IsDigit c) : IsWordChar c := by
  obtain ⟨n, hn, rfl⟩ := h
  unfold IsWordChar
  revert n
  decide

lemma EndsElement.not_isWordChar {r : List Char} (h : EndsElement ')' r) : ∀ c ∈ r.head?, ¬ IsWordChar c := by
  rintro c hc
  rcases h with h | h
  all_goals
    obtain rfl := Option.some.inj (h.symm.trans hc)
    simp [IsWordChar]

lemma EndsElement.not_isQuote {r : List Char} (h : EndsElement ')' r) : ∀ c ∈ r.head?, ¬ IsQuote c := by
  rintro c hc
  rcases h with h | h
  all_goals
    obtain rfl := Option.some.inj (h.symm.trans hc)
    simp [IsQuote]

lemma repr_digits (n : Nat) : ∀ c ∈ n.repr.toList, IsDigit c := fun c hc =>
  digits_isDigit (b := 10) (by decide) (by decide) n c (Nat.toList_repr ▸ hc)

lemma repr_chars (n : Int) : ∀ c ∈ n.repr.toList, IsDigit c ∨ c = '-' := by
  rw [Int.repr_eq_if]
  split
  · exact fun c hc => .inl (repr_digits _ c hc)
  · intro c hc
    rw [String.toList_append, List.mem_append] at hc
    exact hc.elim (fun h => .inr (by simpa using h)) fun h => .inl (repr_digits _ c h)

lemma repr_unique {m n : Int} (h : m.repr = n.repr) : m = n := by
  have digits {a b : Nat} (h : a.repr = b.repr) : a = b := by
    refine digits_inj (b := 10) (by decide) (by decide) ?_
    rw [← Nat.toList_repr, ← Nat.toList_repr, h]
  have unsigned {a b : Nat} : a.repr ≠ "-" ++ b.repr := by
    intro h
    obtain ⟨d, hd, sign⟩ := repr_digits a '-' (by simp [h])
    revert d
    decide
  rw [Int.repr_eq_if, Int.repr_eq_if] at h
  split at h <;> split at h
  · have := digits h
    omega
  · exact absurd h unsigned
  · exact absurd h.symm unsigned
  · have := digits (String.append_right_inj _ |>.mp h)
    omega

end Words

namespace Literal

variable {l m : Literal}

lemma display_integer {n : Int} (h : l.integer? = some n) : l.display = n.repr := by
  cases l with
  | int => obtain rfl := Option.some.inj h; rfl
  | uint => obtain rfl := Option.some.inj h; rfl
  | _ => cases h

lemma keyword_cases (hf : l.isFloat = false) (hq : l.quote? = none) (hi : l.integer? = none) :
    l = .null ∨ l = .bool true ∨ l = .bool false := by
  cases l with
  | null => exact .inl rfl
  | bool b => cases b <;> simp
  | int | uint => cases hi
  | float => cases hf
  | char | string => cases hq

lemma display_keyword (hf : l.isFloat = false) (hq : l.quote? = none) (hi : l.integer? = none) :
    l.display ∈ ["null", "true", "false"] := by
  rcases keyword_cases hf hq hi with rfl | rfl | rfl <;> simp [display]

lemma repr_not_keyword (n : Int) : n.repr ∉ ["null", "true", "false"] := by
  have apart {w : String} {c : Char} (hc : c ∈ w.toList) (hd : ¬ (IsDigit c ∨ c = '-')) : n.repr ≠ w := by
    rintro rfl
    exact hd (repr_chars n c hc)
  have notDigit : ∀ c ∈ ['u', 's'], ¬ (IsDigit c ∨ c = '-') := by
    rintro c hc (⟨n, hn, rfl⟩ | rfl)
    · revert n
      decide
    · exact absurd hc (by decide)
  simp only [List.mem_cons, List.not_mem_nil, or_false, not_or]
  exact ⟨apart (c := 'u') (by decide) (notDigit _ (by decide)), apart (c := 'u') (by decide) (notDigit _ (by decide)),
    apart (c := 's') (by decide) (notDigit _ (by decide))⟩

lemma display_isWord (hf : l.isFloat = false) (hq : l.quote? = none) : IsWord l.display.toList := by
  cases hi : l.integer? with
  | some n =>
    rw [display_integer hi]
    intro c hc
    rcases repr_chars n c hc with h | rfl
    · exact h.isWordChar
    · simp [IsWordChar]
  | none =>
    obtain h | h | h : l.display = "null" ∨ l.display = "true" ∨ l.display = "false" := by
      simpa using display_keyword hf hq hi
    all_goals simp [h, IsWord, IsWordChar]

lemma alike_of_words (hl : l.isFloat = false) (hm : m.isFloat = false) (hql : l.quote? = none)
    (hqm : m.quote? = none) (h : l.display = m.display) : l.Alike m := by
  cases hi : l.integer? with
  | some n =>
    cases hj : m.integer? with
    | some k =>
      rw [display_integer hi, display_integer hj] at h
      exact .inr ⟨n, hi, repr_unique h ▸ hj⟩
    | none =>
      rw [display_integer hi] at h
      exact absurd (h ▸ display_keyword hm hqm hj) (repr_not_keyword n)
  | none =>
    cases hj : m.integer? with
    | some k =>
      rw [display_integer hj] at h
      exact absurd (h ▸ display_keyword hl hql hi) (repr_not_keyword k)
    | none =>
      rcases keyword_cases hl hql hi with rfl | rfl | rfl <;>
        rcases keyword_cases hm hqm hj with rfl | rfl | rfl <;>
          first | exact .inl rfl | simp [display] at h

section Quotes

def characters : Literal → List Char
  | char c => [c]
  | string s => s.val.toList
  | _ => []

lemma quote_isQuote {q : Char} (h : l.quote? = some q) : IsQuote q := by
  cases l with
  | char => exact .inl (Option.some.inj h).symm
  | string => exact .inr (Option.some.inj h).symm
  | _ => cases h

theorem display_quoted {q : Char} (h : l.quote? = some q) :
    ∃ t, Spelled q l.characters t ∧ l.display.toList = q :: t ++ [q] := by
  cases l with
  | char c =>
    obtain rfl := Option.some.inj h
    exact ⟨_, .cons (asciiEscape_escaped c) .nil, by simp [display, quotedAscii]⟩
  | string s =>
    obtain rfl := Option.some.inj h
    exact ⟨_, .flatMap (shownEscape_escaped (.inr rfl)) s.val.toList, by simp [display, quoted]⟩
  | _ => cases h

lemma alike_of_characters {q : Char} (hl : l.quote? = some q) (hm : m.quote? = some q)
    (h : l.characters = m.characters) : l.Alike m := by
  refine .inl ?_
  cases l with
  | char c =>
    cases m with
    | char d => obtain rfl := (List.cons.inj h).1; rfl
    | string => cases hl; cases hm
    | _ => cases hm
  | string s =>
    cases m with
    | char => cases hl; cases hm
    | string t => simp [bare, Text.bare, String.toList_inj.mp h]
    | _ => cases hm
  | _ => cases hl

end Quotes

theorem read (hl : l.isFloat = false) (hm : m.isFloat = false) {r s : List Char} (hr : EndsElement ')' r)
    (hs : EndsElement ')' s) (h : l.display.toList ++ r = m.display.toList ++ s) : l.Alike m ∧ r = s := by
  cases hql : l.quote? with
  | none =>
    have word := display_isWord hl hql
    cases hqm : m.quote? with
    | none =>
      obtain ⟨same, rest⟩ := word_unique word (display_isWord hm hqm) hr.not_isWordChar hs.not_isWordChar h
      exact ⟨alike_of_words hl hm hql hqm (String.toList_inj.mp same), rest⟩
    | some q =>
      obtain ⟨t, -, ht⟩ := display_quoted hqm
      rw [ht, List.append_assoc, List.cons_append] at h
      exact absurd h (word.head_ne hr.not_isQuote (quote_isQuote hqm))
  | some q =>
    have quote := quote_isQuote hql
    obtain ⟨t, spelled, ht⟩ := display_quoted hql
    rw [ht, List.append_assoc, List.cons_append] at h
    cases hqm : m.quote? with
    | none => exact absurd h.symm ((display_isWord hm hqm).head_ne hs.not_isQuote quote)
    | some q' =>
      obtain ⟨u, spelled', hu⟩ := display_quoted hqm
      rw [hu, List.append_assoc, List.cons_append] at h
      obtain ⟨rfl, inner⟩ := List.cons.inj h
      obtain ⟨chars, rest⟩ := spelled.unique quote spelled' (by simpa using inner)
      exact ⟨alike_of_characters hql hqm chars, rest⟩

lemma display_congr (h : l.Alike m) : l.display = m.display := by
  rcases h with h | ⟨n, hl, hm⟩
  · rw [← display_bare l, h, display_bare]
  · rw [display_integer hl, display_integer hm]

theorem display_iff (hl : l.isFloat = false) (hm : m.isFloat = false) : l.display = m.display ↔ l.Alike m :=
  ⟨fun h => (read hl hm (r := [')']) (.inr rfl) (.inr rfl) (by rw [h])).1, display_congr⟩

end Literal

inductive Argument where
  | positional (l : Literal)
  | named (name : String) (l : Literal)

namespace Argument

def display : Argument → String
  | positional l => l.display
  | named name l => name ++ " = " ++ l.display

def literal : Argument → Literal
  | positional l => l
  | named _ l => l

def name? : Argument → Option String
  | positional _ => none
  | named name _ => some name

structure Readable (x : Argument) : Prop where
  literal : x.literal.isFloat = false
  name : ∀ n ∈ x.name?, IsWord n.toList

structure Alike (x y : Argument) : Prop where
  name : x.name? = y.name?
  literal : x.literal.Alike y.literal

variable {x y : Argument} {r s : List Char}

lemma display_named (n : String) (l : Literal) (r : List Char) :
    (named n l).display.toList ++ r = n.toList ++ ' ' :: '=' :: ' ' :: (l.display.toList ++ r) := by
  simp [display]

lemma read_apart {l m : Literal} {n : String} (hl : l.isFloat = false) (hn : IsWord n.toList)
    (hr : EndsElement ')' r) : (positional l).display.toList ++ r ≠ (named n m).display.toList ++ s := by
  have blank (t : List Char) : ∀ c ∈ (' ' :: t).head?, ¬ IsWordChar c := by simp [IsWordChar]
  rw [display_named, display]
  intro h
  cases hq : l.quote? with
  | none =>
    obtain ⟨-, rest⟩ := word_unique (l.display_isWord hl hq) hn hr.not_isWordChar (blank _) h
    subst rest
    rcases hr with hr | hr <;> exact absurd hr (by simp)
  | some q =>
    obtain ⟨t, -, ht⟩ := Literal.display_quoted hq
    rw [ht, List.append_assoc, List.cons_append] at h
    exact hn.head_ne (by simp [IsQuote]) (Literal.quote_isQuote hq) h.symm

theorem read (hx : x.Readable) (hy : y.Readable) (hr : EndsElement ')' r) (hs : EndsElement ')' s)
    (h : x.display.toList ++ r = y.display.toList ++ s) : x.Alike y ∧ r = s := by
  cases x with
  | positional l =>
    cases y with
    | positional m =>
      obtain ⟨alike, rest⟩ := Literal.read hx.literal hy.literal hr hs h
      exact ⟨⟨rfl, alike⟩, rest⟩
    | named n m => exact absurd h (read_apart hx.literal (hy.name n rfl) hr)
  | named n l =>
    cases y with
    | positional m => exact absurd h.symm (read_apart hy.literal (hx.name n rfl) hs)
    | named k m =>
      rw [display_named, display_named] at h
      obtain ⟨names, rest⟩ := word_unique (hx.name n rfl) (hy.name k rfl) (by simp [IsWordChar])
        (by simp [IsWordChar]) h
      obtain ⟨alike, rest⟩ := Literal.read (l := l) (m := m) hx.literal hy.literal hr hs (by simpa using rest)
      exact ⟨⟨congrArg some (String.toList_inj.mp names), alike⟩, rest⟩

lemma display_congr (h : x.Alike y) : x.display = y.display := by
  obtain ⟨name, literal⟩ := h
  have same := Literal.display_congr literal
  cases x <;> cases y <;> simp_all [name?, display, Argument.literal]

end Argument

namespace Attribute

def arguments (a : Attribute) : List Argument :=
  a.positional.items.map (fun x => .positional x.val.literal) ++
    a.named.map fun n => .named n.name.val n.value.val.literal

def list (xs : List Argument) : String :=
  if xs.isEmpty then "" else "(" ++ commaSeparated (xs.map Argument.display) ++ ")"

lemma display_eq (a : Attribute) : a.display = "[" ++ a.type.val.display ++ list a.arguments ++ "]" := by
  simp [display, list, arguments, Argument.display, Constant.display, Function.comp_def]

lemma toList_list (x : Argument) (xs : List Argument) : (list (x :: xs)).toList =
    '(' :: (commaSeparated ((x :: xs).map Argument.display)).toList ++ [')'] := by
  simp [list]

lemma list_unique {xs ys : List Argument} (hx : ∀ x ∈ xs, x.Readable) (hy : ∀ y ∈ ys, y.Readable)
    (h : (list xs).toList ++ [']'] = (list ys).toList ++ [']']) : List.Forall₂ Argument.Alike xs ys := by
  have nil : (list []).toList = [] := rfl
  cases xs with
  | nil =>
    cases ys with
    | nil => exact .nil
    | cons y ys =>
      rw [nil, toList_list] at h
      exact absurd (List.cons.inj h).1 (by decide)
  | cons x xs =>
    cases ys with
    | nil =>
      rw [nil, toList_list] at h
      exact absurd (List.cons.inj h).1 (by decide)
    | cons y ys =>
      rw [toList_list, toList_list] at h
      exact (commaSeparated_unique (r := [']']) (s := [']']) (by decide) (List.cons_ne_nil x xs)
        (List.cons_ne_nil y ys) (fun x hxs y hys r s hr hs => Argument.read (hx x hxs) (hy y hys) hr hs)
        (by simpa using (List.cons.inj h).2)).1

theorem display_iff {a b : Attribute} (ht : a.type.val.display = b.type.val.display)
    (ha : ∀ x ∈ a.arguments, x.Readable) (hb : ∀ y ∈ b.arguments, y.Readable) :
    a.display = b.display ↔ List.Forall₂ Argument.Alike a.arguments b.arguments := by
  rw [display_eq, display_eq, ht]
  constructor
  · intro h
    have chars := congrArg String.toList h
    simp only [String.toList_append, List.append_assoc, List.append_cancel_left_eq] at chars
    exact list_unique ha hb chars
  · intro h
    have elements : a.arguments.map Argument.display = b.arguments.map Argument.display :=
      List.forall₂_eq_eq_eq ▸ List.forall₂_map_left_iff.mpr
        (List.forall₂_map_right_iff.mpr (h.imp fun _ _ => Argument.display_congr))
    have empty : a.arguments.isEmpty = b.arguments.isEmpty := by
      rw [Bool.eq_iff_iff, List.isEmpty_iff_length_eq_zero, List.isEmpty_iff_length_eq_zero, h.length_eq]
    rw [list, list, elements, empty]

end Attribute

/-- The written form of a literal tells which it is, up to the sort of an integer. -/
theorem literal_displays_unambiguous :
    (∀ l m : Literal, l.isFloat = false → m.isFloat = false →
      (l.display = m.display ↔ l.bare = m.bare ∨ ∃ n, l.integer? = some n ∧ m.integer? = some n)) ∧
    (∀ (l : Literal) (q : Char), l.quote? = some q → (∀ c ∈ l.display.toList, isLineBreak c = false) ∧
      ∃ t, l.display.toList = q :: t ++ [q] ∧ ∀ r, afterQuote? q (t ++ q :: r) = some r) ∧
    (∀ a b : Attribute, a.type.val.display = b.type.val.display → (∀ x ∈ a.arguments, x.Readable) →
      (∀ y ∈ b.arguments, y.Readable) →
      (a.display = b.display ↔ List.Forall₂ Argument.Alike a.arguments b.arguments)) := by
  refine ⟨fun l m hl hm => Literal.display_iff hl hm, fun l q hq => ?_, fun a b ht ha hb =>
    Attribute.display_iff ht ha hb⟩
  have quote := Literal.quote_isQuote hq
  obtain ⟨t, spelled, ht⟩ := Literal.display_quoted hq
  refine ⟨?_, t, ht, fun r => ?_⟩
  · have hline : isLineBreak q = false := by rcases quote with rfl | rfl <;> rfl
    rw [ht]
    simp only [List.cons_append, List.mem_cons, List.mem_append, List.not_mem_nil, or_false]
    rintro c (rfl | hc | rfl)
    · exact hline
    · exact spelled.within_line c hc
    · exact hline
  · rw [spelled.afterQuote quote, afterQuote?, if_pos rfl]
    rcases quote with rfl | rfl <;> simp

theorem literal_displays_of_five :
    let marked (l : Literal) : Attribute :=
      ⟨SharedType.unknown.handle, ⟨false, 0, [⟨0, ⟨SharedType.null.handle, l⟩⟩]⟩, [], .empty⟩
    (Literal.int 5).display = (Literal.uint 5).display ∧
      (∃ t, (Literal.string ⟨0, "a\"\n"⟩).display.toList = '"' :: t ++ ['"'] ∧
        ∀ r, afterQuote? '"' (t ++ '"' :: r) = some r) ∧
      (marked (.int 5)).display ≠ (marked (.char '5')).display := by
  intro marked
  have readable (l : Literal) (h : l.isFloat = false) : ∀ x ∈ (marked l).arguments, x.Readable := by
    intro x hx
    obtain rfl := List.mem_singleton.mp hx
    exact ⟨h, by simp [Argument.name?]⟩
  refine ⟨(literal_displays_unambiguous.1 (.int 5) (.uint 5) rfl rfl).mpr (.inr ⟨5, rfl, rfl⟩),
    (literal_displays_unambiguous.2.1 _ _ rfl).2, fun h => ?_⟩
  have same := (literal_displays_unambiguous.2.2 (marked (.int 5)) (marked (.char '5')) rfl (readable _ rfl)
    (readable _ rfl)).mp h
  rcases same with _ | ⟨⟨-, bare | ⟨n, -, char⟩⟩, -⟩
  · cases bare
  · cases char

end CodeModel
