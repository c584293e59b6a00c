import CodeModel.Proofs.Text.Reading
import CodeModel.Text.Quoted
import Mathlib.Tactic.Lemma

/-! No spelling of a character in quotes begins another one, and none ends the quotes or the line. -/

namespace CodeModel.Text

def isLineBreak (c : Char) : Bool := ['\n', '\x0b', '\x0c', '\r', '\x85', '\u2028', '\u2029'].contains c

def IsQuote (c : Char) : Prop := c = '\'' ∨ c = '"'

def afterQuote? (quote : Char) : List Char → Option (List Char)
  | [] => none
  | '\\' :: _ :: cs => afterQuote? quote cs
  | c :: cs => if c = quote then some cs else afterQuote? quote cs

section Digits

variable {c : Char}

lemma IsDigit.ne (h : IsDigit c) : ∀ d ∈ ['\\', '\'', '"', '\x7b', '\x7d'], c ≠ d := by
  obtain ⟨n, hn, rfl⟩ := h
  have all : ∀ n < 16, n.digitChar ∉ ['\\', '\'', '"', '\x7b', '\x7d'] := by decide
  exact fun d hd he => all n hn (he ▸ hd)

lemma IsDigit.within_line (h : IsDigit c) : isLineBreak c = false := by
  obtain ⟨n, hn, rfl⟩ := h
  revert n
  decide

lemma IsQuote.mem (h : IsQuote c) : c ∈ ['\\', '\'', '"', '\x7b', '\x7d'] := by
  rcases h with rfl | rfl <;> decide

end Digits

def shortMeaning? : Char → Option Char
  | 't' => some '\t'
  | 'r' => some '\r'
  | 'n' => some '\n'
  | '\\' => some '\\'
  | '\'' => some '\''
  | '"' => some '"'
  | '0' => some '\x00'
  | _ => none

/-- The spellings of a character between quotes. -/
inductive Escaped (quote : Char) : Char → List Char → Prop
  | plain {c : Char} (escape : c ≠ '\\') (other : c ≠ quote) (line : isLineBreak c = false) : Escaped quote c [c]
  | short {c e : Char} (meaning : shortMeaning? e = some c) : Escaped quote c ['\\', e]
  | codePoint (c : Char) : Escaped quote c (codePoint c)

namespace Escaped

variable {quote c d : Char} {t u r s : List Char}

theorem unique (ht : Escaped quote c t) (hu : Escaped quote d u) (h : t ++ r = u ++ s) : c = d ∧ r = s := by
  cases ht with
  | plain hc =>
    cases hu with
    | plain => exact List.cons.inj h
    | short | codePoint => exact absurd (List.cons.inj h).1 hc
  | @short e he =>
    cases hu with
    | plain hd => exact absurd (List.cons.inj h).1.symm hd
    | @short e' he' =>
      obtain ⟨rfl, rest⟩ := List.cons.inj (List.cons.inj h).2
      exact ⟨Option.some.inj (he.symm.trans he'), rest⟩
    | codePoint =>
      obtain ⟨rfl, -⟩ := List.cons.inj (List.cons.inj h).2
      cases he
  | codePoint =>
    cases hu with
    | plain hd => exact absurd (List.cons.inj h).1.symm hd
    | @short e he =>
      obtain ⟨rfl, -⟩ := List.cons.inj (List.cons.inj h).2
      cases he
    | codePoint =>
      have hex (c : Char) : ∀ d ∈ Nat.toDigits 16 c.toNat, d ≠ '\x7d' := fun d hd =>
        (digits_isDigit (by decide) (Nat.le_refl _) _ d hd).ne _ (by decide)
      have hdigits : Nat.toDigits 16 c.toNat ++ '\x7d' :: r = Nat.toDigits 16 d.toNat ++ '\x7d' :: s := by
        simpa [Text.codePoint] using h
      obtain ⟨digits, rest⟩ := word_unique (hex c) (hex d) (by simp) (by simp) hdigits
      exact ⟨Char.toNat_inj.mp (digits_inj (by decide) (Nat.le_refl _) digits), (List.cons.inj rest).2⟩

lemma head_ne (hquote : IsQuote quote) (h : Escaped quote c t) : t ++ r ≠ quote :: s := by
  have hb : '\\' ≠ quote := by rcases hquote with rfl | rfl <;> decide
  rintro he
  cases h with
  | plain _ hc => exact hc (List.cons.inj he).1
  | short | codePoint => exact hb (List.cons.inj he).1

lemma within_line (h : Escaped quote c t) : ∀ d ∈ t, isLineBreak d = false := by
  cases h with
  | plain _ _ hc => simpa using hc
  | @short e he =>
    have : isLineBreak e = false := by
      unfold shortMeaning? at he
      split at he <;> first | rfl | cases he
    simp [this]
    rfl
  | codePoint =>
    intro d hd
    simp only [Text.codePoint, List.mem_append, List.mem_cons, List.not_mem_nil, or_false] at hd
    obtain ((rfl | rfl | rfl) | hd) | rfl := hd
    · rfl
    · rfl
    · rfl
    · exact (digits_isDigit (by decide) (Nat.le_refl _) _ d hd).within_line
    · rfl

end Escaped

section Reading

variable {quote : Char}

lemma afterQuote_cons {c : Char} (hs : c ≠ '\\') (hq : c ≠ quote) (cs : List Char) :
    afterQuote? quote (c :: cs) = afterQuote? quote cs := by
  rw [afterQuote?, if_neg hq]
  rintro d ds rfl
  exact absurd rfl hs

lemma afterQuote_append {xs : List Char} (hx : ∀ c ∈ xs, c ≠ '\\' ∧ c ≠ quote) (r : List Char) :
    afterQuote? quote (xs ++ r) = afterQuote? quote r := by
  induction xs with
  | nil => rfl
  | cons x xs ih =>
    obtain ⟨hs, hq⟩ := hx x (by simp)
    rw [List.cons_append, afterQuote_cons hs hq, ih fun c hc => hx c (List.mem_cons_of_mem _ hc)]

lemma Escaped.afterQuote (hquote : IsQuote quote) {c : Char} {t : List Char} (h : Escaped quote c t)
    (r : List Char) : afterQuote? quote (t ++ r) = afterQuote? quote r := by
  cases h with
  | plain hs hq => exact afterQuote_cons hs hq r
  | short => rfl
  | codePoint =>
    have inner : ∀ d ∈ '\x7b' :: (Nat.toDigits 16 c.toNat ++ ['\x7d']), d ≠ '\\' ∧ d ≠ quote := by
      simp only [List.mem_cons, List.mem_append, List.not_mem_nil, or_false]
      rintro d (rfl | hd | rfl)
      · rcases hquote with rfl | rfl <;> decide
      · have digit := digits_isDigit (by decide) (Nat.le_refl _) _ d hd
        exact ⟨digit.ne _ (by decide), digit.ne _ hquote.mem⟩
      · rcases hquote with rfl | rfl <;> decide
    simpa [Text.codePoint, afterQuote?] using afterQuote_append inner r

end Reading

inductive Spelled (quote : Char) : List Char → List Char → Prop
  | nil : Spelled quote [] []
  | cons {c : Char} {cs t u : List Char} (head : Escaped quote c t) (tail : Spelled quote cs u) :
      Spelled quote (c :: cs) (t ++ u)

namespace Spelled

variable {quote : Char} {cs ds t u r s : List Char}

lemma flatMap {f : Char → List Char} (hf : ∀ c, Escaped quote c (f c)) (cs : List Char) :
    Spelled quote cs (cs.flatMap f) := by
  induction cs with
  | nil => exact .nil
  | cons c cs ih => exact .cons (hf c) ih

theorem unique (hquote : IsQuote quote) (ht : Spelled quote cs t) (hu : Spelled quote ds u)
    (h : t ++ quote :: r = u ++ quote :: s) : cs = ds ∧ r = s := by
  induction ht generalizing ds u with
  | nil =>
    cases hu with
    | nil => exact ⟨rfl, (List.cons.inj h).2⟩
    | cons hd =>
      rw [List.append_assoc] at h
      exact absurd h.symm (hd.head_ne hquote)
  | cons hc _ ih =>
    rw [List.append_assoc] at h
    cases hu with
    | nil => exact absurd h (hc.head_ne hquote)
    | cons hd tail =>
      rw [List.append_assoc] at h
      obtain ⟨rfl, rest⟩ := hc.unique hd h
      obtain ⟨rfl, rest⟩ := ih tail rest
      exact ⟨rfl, rest⟩

lemma within_line (h : Spelled quote cs t) : ∀ d ∈ t, isLineBreak d = false := by
  induction h with
  | nil => simp
  | cons hc _ ih => exact fun d hd => (List.mem_append.mp hd).elim (hc.within_line d) (ih d)

lemma afterQuote (hquote : IsQuote quote) (h : Spelled quote cs t) (r : List Char) :
    afterQuote? quote (t ++ r) = afterQuote? quote r := by
  induction h with
  | nil => rfl
  | cons hc _ ih => rw [List.append_assoc, hc.afterQuote hquote, ih]

end Spelled

section Printing

lemma shortEscape_escaped (quote : Char) {c : Char} {e : List Char} (h : shortEscape? c = some e) :
    Escaped quote c e := by
  unfold shortEscape? at h
  split at h <;> cases h <;> exact .short rfl

lemma shortEscape_none {c : Char} (h : shortEscape? c = none) : c ≠ '\\' ∧ c ≠ '\n' ∧ c ≠ '\r' :=
  ⟨fun hc => by simp [hc, shortEscape?] at h, fun hc => by simp [hc, shortEscape?] at h,
    fun hc => by simp [hc, shortEscape?] at h⟩

lemma quote_escaped (quote : Char) {c : Char} (hc : IsQuote c) : Escaped quote c ['\\', c] := by
  rcases hc with rfl | rfl <;> exact .short rfl

theorem asciiEscape_escaped (c : Char) : Escaped '\'' c (asciiEscape c) := by
  unfold asciiEscape
  split
  next e he => exact shortEscape_escaped _ he
  next he =>
    split
    next hq => exact quote_escaped _ (by simpa [IsQuote] using hq)
    next hq =>
      have hq : ¬ IsQuote c := by simpa [IsQuote] using hq
      split
      next hr =>
        refine .plain (shortEscape_none he).1 (fun h => hq (.inl h)) ?_
        by_contra hb
        have hb : isLineBreak c = true := by simpa using hb
        simp only [isLineBreak, List.contains_iff_mem, List.mem_cons, List.not_mem_nil, or_false] at hb
        rcases hb with rfl | rfl | rfl | rfl | rfl | rfl | rfl <;> exact absurd hr (by decide)
      next => exact .codePoint c

lemma isHidden_of_isLineBreak {c : Char} (h : isLineBreak c = true) : isHidden c = true := by
  simp only [isLineBreak, List.contains_iff_mem, List.mem_cons, List.not_mem_nil, or_false] at h
  rcases h with rfl | rfl | rfl | rfl | rfl | rfl | rfl <;> decide +kernel

theorem shownEscape_escaped {quote : Char} (hquote : IsQuote quote) (c : Char) :
    Escaped quote c (shownEscape quote c) := by
  unfold shownEscape
  split
  next e he => exact shortEscape_escaped _ he
  next he =>
    split
    next hq => exact quote_escaped _ (hq ▸ hquote)
    next hq =>
      split
      next hz =>
        obtain rfl : c = '\x00' := Char.toNat_inj.mp hz
        exact .short rfl
      next =>
        split
        next => exact .codePoint c
        next hh => exact .plain (shortEscape_none he).1 hq (by simpa using fun hb => hh (isHidden_of_isLineBreak hb))

end Printing

end CodeModel.Text
