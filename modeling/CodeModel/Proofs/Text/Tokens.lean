import CodeModel.Json.Reader
import Mathlib.Tactic.Lemma

/-! The tokens of JSON by a grammar of their own: numerals, and strings with their escapes. -/

namespace CodeModel.Json

open Reader

section Numerals

structure Digits (ds : List Char) : Prop where
  nonempty : ds ≠ []
  digit : ∀ c ∈ ds, c.isDigit = true

inductive Whole : List Char → Prop
  | zero : Whole ['0']
  | digits {ds : List Char} (row : Digits ds) (start : ds.head? ≠ some '0') : Whole ds

inductive Fraction : List Char → Prop
  | absent : Fraction []
  | digits {ds : List Char} (row : Digits ds) : Fraction ('.' :: ds)

inductive Exponent : List Char → Prop
  | absent : Exponent []
  | digits {e : Char} {s ds : List Char} (letter : e = 'e' ∨ e = 'E') (signed : s ∈ [[], ['+'], ['-']])
      (row : Digits ds) : Exponent (e :: (s ++ ds))

inductive Numeral : List Char → Prop
  | mk {s w f e : List Char} (signed : s ∈ [[], ['-']]) (whole : Whole w) (fraction : Fraction f)
      (exponent : Exponent e) : Numeral (s ++ (w ++ (f ++ e)))

def EndsNumeral (r : List Char) : Prop := ∀ c ∈ r.head?, c.isDigit = false ∧ c ≠ '.' ∧ c ≠ 'e' ∧ c ≠ 'E'

variable {ds w f e r t cs : List Char}

lemma Digits.head (h : Digits ds) (r : List Char) : ∃ c, (ds ++ r).head? = some c ∧ c.isDigit = true := by
  obtain ⟨c, u, rfl⟩ := List.exists_cons_of_ne_nil h.nonempty
  exact ⟨c, rfl, h.digit c (by simp)⟩

lemma Digits.read (h : Digits ds) (hr : ∀ c ∈ r.head?, c.isDigit = false) : digits? (ds ++ r) = some (ds, r) := by
  have stop : r.takeWhile Char.isDigit = [] ∧ r.dropWhile Char.isDigit = r := by
    cases r with
    | nil => exact ⟨rfl, rfl⟩
    | cons c r => simp [hr c rfl]
  have taken : (ds ++ r).takeWhile Char.isDigit = ds := by
    rw [List.takeWhile_append_of_pos h.digit, stop.1, List.append_nil]
  have dropped : (ds ++ r).dropWhile Char.isDigit = r := by
    rw [List.dropWhile_append_of_pos h.digit, stop.2]
  simp [digits?, taken, dropped, h.nonempty]

lemma digits_sound (h : digits? cs = some (ds, r)) : cs = ds ++ r ∧ Digits ds := by
  simp only [digits?, Option.ite_none_left_eq_some, Option.some.injEq, Prod.mk.injEq] at h
  obtain ⟨nonempty, rfl, rfl⟩ := h
  refine ⟨List.takeWhile_append_dropWhile.symm, by simpa using nonempty, fun c hc => ?_⟩
  exact List.all_eq_true.mp List.all_takeWhile c hc

lemma Whole.head (h : Whole w) (r : List Char) : ∃ c, (w ++ r).head? = some c ∧ c.isDigit = true := by
  cases h with
  | zero => exact ⟨'0', rfl, rfl⟩
  | digits row => exact row.head r

lemma Whole.read (h : Whole w) (hr : ∀ c ∈ r.head?, c.isDigit = false) : whole? (w ++ r) = some (w, r) := by
  cases h with
  | zero => rfl
  | digits row start =>
    unfold whole?
    split
    next hz =>
      obtain ⟨c, u, rfl⟩ := List.exists_cons_of_ne_nil row.nonempty
      exact absurd (congrArg some (List.cons.inj hz).1) start
    next => exact row.read hr

lemma whole_sound (h : whole? cs = some (w, r)) : cs = w ++ r ∧ Whole w := by
  unfold whole? at h
  split at h
  next =>
    obtain ⟨rfl, rfl⟩ : ['0'] = w ∧ _ = r := by simpa using h
    exact ⟨rfl, .zero⟩
  next nonzero =>
    obtain ⟨rfl, row⟩ := digits_sound h
    refine ⟨rfl, .digits row fun start => ?_⟩
    obtain ⟨c, u, rfl⟩ := List.exists_cons_of_ne_nil row.nonempty
    obtain rfl : c = '0' := by simpa using start
    exact nonzero (u ++ r) rfl

lemma Fraction.read (h : Fraction f) (hr : ∀ c ∈ r.head?, c.isDigit = false ∧ c ≠ '.') :
    fraction? (f ++ r) = some (f, r) := by
  cases h with
  | absent =>
    rw [List.nil_append]
    unfold fraction?
    split
    next => exact absurd rfl (hr '.' rfl).2
    next => rfl
  | digits row => simp [fraction?, row.read fun c hc => (hr c hc).1]

lemma fraction_sound (h : fraction? cs = some (f, r)) : cs = f ++ r ∧ Fraction f := by
  unfold fraction? at h
  split at h
  next =>
    obtain ⟨⟨ds, r'⟩, hd, he⟩ := Option.map_eq_some_iff.mp h
    obtain ⟨rfl, rfl⟩ := Prod.mk.inj he
    obtain ⟨rfl, row⟩ := digits_sound hd
    exact ⟨rfl, .digits row⟩
  next =>
    obtain ⟨rfl, rfl⟩ : [] = f ∧ _ = r := by simpa using h
    exact ⟨rfl, .absent⟩

lemma Exponent.read (h : Exponent e) (hr : EndsNumeral r) : exponent? (e ++ r) = some (e, r) := by
  cases h with
  | absent =>
    cases r with
    | nil => rfl
    | cons c r => simp [exponent?, hr c rfl]
  | @digits e s ds letter signed row =>
    have read := row.read fun c hc => (hr c hc).1
    have begun : (decide (e = 'e') || decide (e = 'E')) = true := by simpa using letter
    unfold exponent?
    simp only [List.cons_append, List.append_assoc, begun, ↓reduceIte]
    simp only [List.mem_cons, List.not_mem_nil, or_false] at signed
    rcases signed with rfl | rfl | rfl
    · obtain ⟨c, head, digit⟩ := row.head r
      rw [List.nil_append]
      split
      next hs =>
        rw [hs] at head
        exact absurd (Option.some.inj head) (by rintro rfl; cases digit)
      next hs =>
        rw [hs] at head
        exact absurd (Option.some.inj head) (by rintro rfl; cases digit)
      next => simp [read]
    · simp [read]
    · simp [read]

lemma exponent_sound (h : exponent? cs = some (e, r)) : cs = e ++ r ∧ Exponent e := by
  cases cs with
  | nil =>
    obtain ⟨rfl, rfl⟩ : [] = e ∧ [] = r := by simpa [exponent?] using h
    exact ⟨rfl, .absent⟩
  | cons c cs =>
    unfold exponent? at h
    simp only at h
    split at h
    next letter =>
      have letter : c = 'e' ∨ c = 'E' := by simpa using letter
      split at h
      all_goals
        obtain ⟨⟨ds, r'⟩, hd, he⟩ := Option.map_eq_some_iff.mp h
        obtain ⟨rfl, rfl⟩ := Prod.mk.inj he
        obtain ⟨rfl, row⟩ := digits_sound hd
      · exact ⟨rfl, .digits (s := ['+']) letter (by simp) row⟩
      · exact ⟨rfl, .digits (s := ['-']) letter (by simp) row⟩
      · exact ⟨rfl, .digits (s := []) letter (by simp) row⟩
    next =>
      obtain ⟨rfl, rfl⟩ : [] = e ∧ c :: cs = r := by simpa using h
      exact ⟨rfl, .absent⟩

lemma Exponent.head (h : Exponent e) (hr : EndsNumeral r) : ∀ c ∈ (e ++ r).head?, c.isDigit = false ∧ c ≠ '.' := by
  intro c hc
  cases h with
  | absent => exact ⟨(hr c hc).1, (hr c hc).2.1⟩
  | digits letter =>
    obtain rfl := Option.some.inj hc
    rcases letter with rfl | rfl <;> decide

lemma Fraction.head (h : Fraction f) (hr : ∀ c ∈ r.head?, c.isDigit = false ∧ c ≠ '.') :
    ∀ c ∈ (f ++ r).head?, c.isDigit = false := by
  intro c hc
  cases h with
  | absent => exact (hr c hc).1
  | digits =>
    obtain rfl := Option.some.inj hc
    decide

theorem Numeral.read (h : Numeral t) (hr : EndsNumeral r) : number? (t ++ r) = some (t, r) := by
  obtain ⟨signed, whole, fraction, exponent⟩ := h
  rename_i s w f e
  have ends := exponent.head hr
  have unsigned : unsigned? (w ++ (f ++ (e ++ r))) = some (w ++ (f ++ e), r) := by
    simp [unsigned?, whole.read (fraction.head ends), fraction.read ends, exponent.read hr]
  simp only [List.mem_cons, List.not_mem_nil, or_false] at signed
  rcases signed with rfl | rfl
  · obtain ⟨c, head, digit⟩ := whole.head (f ++ (e ++ r))
    simp only [List.nil_append, List.append_assoc]
    unfold number?
    split
    next hs =>
      rw [hs] at head
      exact absurd (Option.some.inj head) (by rintro rfl; cases digit)
    next => exact unsigned
  · simp [number?, unsigned]

lemma unsigned_sound (h : unsigned? cs = some (t, r)) :
    ∃ w f e, t = w ++ (f ++ e) ∧ Whole w ∧ Fraction f ∧ Exponent e ∧ cs = t ++ r := by
  simp only [unsigned?, Option.bind_eq_bind, Option.bind_eq_some_iff, Option.pure_def, Option.some.injEq, Prod.exists,
    Prod.mk.injEq] at h
  obtain ⟨w, r₁, hw, f, r₂, hf, e, r₃, he, rfl, rfl⟩ := h
  obtain ⟨rfl, whole⟩ := whole_sound hw
  obtain ⟨rfl, fraction⟩ := fraction_sound hf
  obtain ⟨rfl, exponent⟩ := exponent_sound he
  exact ⟨w, f, e, List.append_assoc .., whole, fraction, exponent, by simp⟩

theorem number_sound (h : number? cs = some (t, r)) : cs = t ++ r ∧ Numeral t := by
  unfold number? at h
  split at h
  next =>
    obtain ⟨⟨n, r'⟩, hn, he⟩ := Option.map_eq_some_iff.mp h
    obtain ⟨rfl, rfl⟩ := Prod.mk.inj he
    obtain ⟨w, f, e, rfl, whole, fraction, exponent, rfl⟩ := unsigned_sound hn
    exact ⟨rfl, .mk (s := ['-']) (by simp) whole fraction exponent⟩
  next =>
    obtain ⟨w, f, e, rfl, whole, fraction, exponent, rfl⟩ := unsigned_sound h
    exact ⟨rfl, .mk (s := []) (by simp) whole fraction exponent⟩

lemma Numeral.start (h : Numeral t) : ∃ c u, t = c :: u ∧ (c = '-' ∨ c.isDigit = true) := by
  obtain ⟨signed, whole, fraction, exponent⟩ := h
  rename_i s w f e
  simp only [List.mem_cons, List.not_mem_nil, or_false] at signed
  rcases signed with rfl | rfl
  · obtain ⟨c, head, digit⟩ := whole.head (f ++ e)
    obtain ⟨u, hu⟩ := List.head?_eq_some_iff.mp head
    exact ⟨c, u, hu, .inr digit⟩
  · exact ⟨'-', _, rfl, .inl rfl⟩

lemma Numeral.start_ne (h : Numeral t) : ∃ c u, t = c :: u ∧ ∀ d : Char, d ≠ '-' → d.isDigit = false → c ≠ d := by
  obtain ⟨c, u, rfl, hc⟩ := h.start
  refine ⟨c, u, rfl, ?_⟩
  rintro d hd hdigit rfl
  rcases hc with hc | hc
  · exact hd hc
  · exact absurd hc (by simp [hdigit])

end Numerals

section Strings

def HexDigit (n : Nat) (c : Char) : Prop := n < 16 ∧ (c = n.digitChar ∨ c = n.digitChar.toUpper)

instance (n : Nat) (c : Char) : Decidable (HexDigit n c) := inferInstanceAs (Decidable (_ ∧ _))

inductive Hex : Nat → Char → Char → Char → Char → Prop
  | mk {k l m n : Nat} {a b c d : Char} (ha : HexDigit k a) (hb : HexDigit l b) (hc : HexDigit m c)
      (hd : HexDigit n d) : Hex (16 * (16 * (16 * k + l) + m) + n) a b c d

def namedEscapes : List (Char × Char) := [('"', '"'), ('\\', '\\'), ('/', '/'), ('b', '\x08'), ('f', '\x0c'),
  ('n', '\n'), ('r', '\r'), ('t', '\t')]

inductive Spelling : List Char → List Piece → Prop
  | nil : Spelling [] []
  | plain {c : Char} {w : List Char} {ps : List Piece} (quote : c ≠ '"') (escape : c ≠ '\\') (shown : 32 ≤ c.toNat)
      (rest : Spelling w ps) : Spelling (c :: w) (.char c :: ps)
  | named {e c : Char} {w : List Char} {ps : List Piece} (name : (e, c) ∈ namedEscapes) (rest : Spelling w ps) :
      Spelling ('\\' :: e :: w) (.char c :: ps)
  | unit {u : Nat} {a b c d : Char} {w : List Char} {ps : List Piece} (hex : Hex u a b c d) (rest : Spelling w ps) :
      Spelling ('\\' :: 'u' :: a :: b :: c :: d :: w) (.unit u :: ps)

inductive Joined : List Piece → List Char → Prop
  | nil : Joined [] []
  | char {c : Char} {ps : List Piece} {s : List Char} (rest : Joined ps s) : Joined (.char c :: ps) (c :: s)
  | unit {u : Nat} {ps : List Piece} {s : List Char} (single : u < 0xd800 ∨ 0xe000 ≤ u) (rest : Joined ps s) :
      Joined (.unit u :: ps) (Char.ofNat u :: s)
  | pair {u v : Nat} {ps : List Piece} {s : List Char} (leading : 0xd800 ≤ u ∧ u < 0xdc00)
      (trailing : 0xdc00 ≤ v ∧ v < 0xe000) (rest : Joined ps s) :
      Joined (.unit u :: .unit v :: ps) (Char.ofNat (0x10000 + 0x400 * (u - 0xd800) + (v - 0xdc00)) :: s)

variable {a b c d e : Char} {n u : Nat} {s w r cs ds : List Char} {ps : List Piece}

lemma hexDigit_eq : hexDigit? c = some n ↔ HexDigit n c := by
  constructor
  · intro h
    have ascii : ∀ k < 128, ∀ n ∈ hexDigit? (Char.ofNat k), HexDigit n (Char.ofNat k) := by decide
    have low : c.toNat < 128 := by
      refine Nat.lt_of_not_le fun high => ?_
      have above (d : Char) (hd : d.val.toNat < 128) : ¬ c ≤ d := fun he =>
        Nat.not_le_of_lt hd (Nat.le_trans high (UInt32.le_iff_toNat_le.mp he))
      simp [hexDigit?, above '9' (by decide), above 'f' (by decide), above 'F' (by decide)] at h
    simpa using ascii c.toNat low n (by simpa using h)
  · rintro ⟨hn, h⟩
    have digits : ∀ n < 16, hexDigit? n.digitChar = some n ∧ hexDigit? n.digitChar.toUpper = some n := by decide
    rcases h with rfl | rfl
    · exact (digits n hn).1
    · exact (digits n hn).2

lemma hex_eq : hex? [a, b, c, d] = some u ↔ Hex u a b c d := by
  simp only [hex?, List.foldl_cons, List.foldl_nil, Option.bind_some, Option.bind_eq_some_iff, Option.map_eq_some_iff,
    hexDigit_eq]
  constructor
  · rintro ⟨_, ⟨_, ⟨_, ⟨k, ha, rfl⟩, l, hb, rfl⟩, m, hc, rfl⟩, n, hd, rfl⟩
    simpa using Hex.mk ha hb hc hd
  · rintro ⟨ha, hb, hc, hd⟩
    exact ⟨_, ⟨_, ⟨_, ⟨_, ha, rfl⟩, _, hb, rfl⟩, _, hc, rfl⟩, _, hd, by simp⟩

lemma simpleEscape_eq : simpleEscape? e = some c ↔ (e, c) ∈ namedEscapes := by
  unfold simpleEscape?
  split <;> simp_all [namedEscapes, eq_comm]

lemma namedEscapes_ne (h : (e, c) ∈ namedEscapes) : e ≠ 'u' := by
  rintro rfl
  simp [namedEscapes] at h

theorem Spelling.read (h : Spelling w ps) (r : List Char) : Reader.string? (w ++ '"' :: r) = some (w, r) := by
  induction h with
  | nil => rfl
  | @plain c w ps quote escape shown rest ih =>
    have shown : ¬ c.toNat < 32 := by omega
    rw [List.cons_append, Reader.string?]
    · simp [shown, ih]
    · exact quote
    · exact fun _ _ _ _ _ hc _ => escape hc
    · exact fun _ _ hc _ => escape hc
  | @named e c w ps name rest ih =>
    rw [List.cons_append, List.cons_append, Reader.string?]
    · simp [simpleEscape_eq.mpr name, ih]
    · exact fun _ _ _ _ _ he _ => namedEscapes_ne name he
  | unit hex rest ih =>
    simp [Reader.string?, hex_eq.mpr hex, ih]

theorem string_sound (h : Reader.string? cs = some (w, r)) : cs = w ++ '"' :: r ∧ ∃ ps, Spelling w ps := by
  fun_induction Reader.string? cs generalizing w r with
  | case1 => cases h
  | case2 r' =>
    obtain ⟨rfl, rfl⟩ : [] = w ∧ r' = r := by simpa using h
    exact ⟨rfl, [], .nil⟩
  | case3 a b c d r' ih =>
    simp only [Option.bind_eq_bind, Option.bind_eq_some_iff, Option.pure_def, Option.some.injEq, Prod.exists,
      Prod.mk.injEq] at h
    obtain ⟨u, hex, w', r'', hs, rfl, rfl⟩ := h
    obtain ⟨rfl, ps, rest⟩ := ih hs
    exact ⟨rfl, _, .unit (hex_eq.mp hex) rest⟩
  | case4 e r' _ ih =>
    simp only [Option.bind_eq_bind, Option.bind_eq_some_iff, Option.pure_def, Option.some.injEq, Prod.exists,
      Prod.mk.injEq] at h
    obtain ⟨c, name, w', r'', hs, rfl, rfl⟩ := h
    obtain ⟨rfl, ps, rest⟩ := ih hs
    exact ⟨rfl, _, .named (simpleEscape_eq.mp name) rest⟩
  | case5 => cases h
  | case6 c r' quote _ escape _ shown =>
    rename_i ih
    change (Reader.string? r').bind _ = _ at h
    simp only [Option.bind_eq_some_iff, Option.pure_def, Option.some.injEq, Prod.exists, Prod.mk.injEq] at h
    obtain ⟨w', r'', hs, rfl, rfl⟩ := h
    obtain ⟨rfl, ps, rest⟩ := ih hs
    have plain : c ≠ '\\' := by
      rintro rfl
      cases w' with
      | nil => exact escape _ _ rfl rfl
      | cons d w' => exact escape _ _ rfl rfl
    exact ⟨rfl, _, .plain quote plain (by omega) rest⟩

theorem Spelling.pieces (h : Spelling w ps) : pieces? w = some ps := by
  induction h with
  | nil => rfl
  | @plain c w ps quote escape shown rest ih =>
    rw [pieces?]
    · simp [ih]
    · exact fun _ _ _ _ _ hc _ => escape hc
    · exact fun _ _ hc _ => escape hc
  | @named e c w ps name rest ih =>
    rw [pieces?]
    · simp [simpleEscape_eq.mpr name, ih]
    · exact fun _ _ _ _ _ he _ => namedEscapes_ne name he
  | unit hex rest ih =>
    simp [pieces?, hex_eq.mpr hex, ih]

theorem Joined.join (h : Joined ps s) : join? ps = some s := by
  induction h with
  | nil => rfl
  | char rest ih => simp [join?, ih]
  | @unit u ps s single rest ih =>
    have leading : isLeading u = false := by simp [isLeading]; omega
    have trailing : isTrailing u = false := by simp [isTrailing]; omega
    rw [join?.eq_def]
    simp [leading, trailing, ih]
  | @pair u v ps s leading trailing rest ih =>
    have hu : isLeading u = true := by simpa [isLeading] using leading
    have hv : isTrailing v = true := by simpa [isTrailing] using trailing
    simp [join?, hu, hv, ih]

theorem join_sound (h : join? ps = some s) : Joined ps s := by
  fun_induction join? ps generalizing s with
  | case1 =>
    obtain rfl : [] = s := by simpa using h
    exact .nil
  | case2 c ps ih =>
    obtain ⟨t, ht, rfl⟩ := Option.map_eq_some_iff.mp h
    exact .char (ih ht)
  | case3 u leading v ps trailing ih =>
    obtain ⟨t, ht, rfl⟩ := Option.map_eq_some_iff.mp h
    exact .pair (by simpa [isLeading] using leading) (by simpa [isTrailing] using trailing) (ih ht)
  | case4 => cases h
  | case5 => cases h
  | case6 => cases h
  | case7 u ps leading trailing ih =>
    obtain ⟨t, ht, rfl⟩ := Option.map_eq_some_iff.mp h
    refine .unit ?_ (ih ht)
    simp only [isLeading, isTrailing, Bool.and_eq_true, decide_eq_true_eq] at leading trailing
    omega

end Strings

end CodeModel.Json
