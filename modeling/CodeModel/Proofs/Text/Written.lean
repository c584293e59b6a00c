import CodeModel.Json.Writer
import CodeModel.Proofs.Text.Grammar
import CodeModel.Proofs.Text.Reading
import Mathlib.Data.List.Induction

namespace CodeModel.Json

open Reader

section Strings

inductive Form (c : Char) : List Char → Prop
  | plain (quote : c ≠ '"') (escape : c ≠ '\\') (shown : 32 ≤ c.toNat) : Form c [c]
  | short {e : Char} (code : simpleEscape? e = some c) : Form c ['\\', e]
  | unit {d e : Char} (control : c.toNat < 32) (value : hex? ['0', '0', d, e] = some c.toNat) :
      Form c ['\\', 'u', '0', '0', d, e]

variable {c : Char} {t : List Char}

lemma escape_form (c : Char) : Form c (escape c) := by
  have small : ∀ n < 16, ∃ d, Nat.toDigits 16 n = [d] ∧ hex? ['0', '0', '0', d] = some n := fun n hn =>
    ⟨n.digitChar, Nat.toDigits_of_lt_base hn, by revert n; decide⟩
  have large : ∀ n < 32, ¬ n < 16 → ∃ d e, Nat.toDigits 16 n = [d, e] ∧ hex? ['0', '0', d, e] = some n := by
    intro n hn h
    refine ⟨'1', (n % 16).digitChar, ?_, by revert n; decide⟩
    rw [Nat.toDigits_of_base_le (by decide) (by omega), show n / 16 = 1 by omega]
    rfl
  unfold escape
  split
  any_goals exact .short rfl
  next quote escape _ _ _ _ _ =>
    split
    next h =>
      obtain ⟨d, hd, value⟩ := small _ h
      rw [hd]
      exact .unit (by omega) value
    next hs =>
      split
      next h =>
        obtain ⟨d, e, hd, value⟩ := large _ h hs
        rw [hd]
        exact .unit h value
      next h => exact .plain quote escape (by omega)

lemma Form.piece (h : Form c t) : ∃ p, (∀ {w ps}, Spelling w ps → Spelling (t ++ w) (p :: ps)) ∧
    ∀ {ps s}, Joined ps s → Joined (p :: ps) (c :: s) := by
  cases h with
  | plain quote escape shown => exact ⟨.char c, .plain quote escape shown, .char⟩
  | short code => exact ⟨.char c, .named (simpleEscape_eq.mp code), .char⟩
  | unit control value =>
    have single : c.toNat < 0xd800 ∨ 0xe000 ≤ c.toNat := .inl (by omega)
    exact ⟨.unit c.toNat, .unit (hex_eq.mp value), fun rest => by simpa using Joined.unit single rest⟩

theorem encode_spelling (s : String) : ∃ ps, Spelling (encode s) ps ∧ Joined ps s.toList := by
  unfold encode
  induction s.toList with
  | nil => exact ⟨[], .nil, .nil⟩
  | cons c cs ih =>
    obtain ⟨ps, spelling, joined⟩ := ih
    obtain ⟨p, hp, hc⟩ := (escape_form c).piece
    exact ⟨p :: ps, hp spelling, hc joined⟩

def IsString (w : List Char) : Prop := ∀ r, Reader.string? (w ++ '"' :: r) = some (w, r)

theorem encode_isString (s : String) : IsString (encode s) := by
  obtain ⟨ps, spelling, -⟩ := encode_spelling s
  exact spelling.read

theorem decode_encode (s : String) : decode? (encode s) = some s := by
  obtain ⟨ps, spelling, joined⟩ := encode_spelling s
  simp [decode?, spelling.pieces, joined.join]

lemma IsString.spelling {w : List Char} (h : IsString w) : ∃ ps, Spelling w ps := (string_sound (h [])).2

end Strings

section Numbers

structure IsNumber (t : List Char) : Prop where
  start : ∃ c u, t = c :: u ∧ (c = '-' ∨ c.isDigit = true)
  read : ∀ r, EndsValue r → number? (t ++ r) = some (t, r)

lemma digits_head_ne_zero {n : Nat} (h : n ≠ 0) : (Nat.toDigits 10 n).head? ≠ some '0' := by
  induction n using Nat.base_induction 10 (by decide) with
  | single m hm => simpa [Nat.toDigits_of_lt_base hm] using h
  | digit m k hk hm ih =>
    rw [← Nat.toDigits_append_toDigits (by decide) hm hk, List.head?_append_of_ne_nil _ Nat.toDigits_ne_nil]
    exact ih (by omega)

lemma digits_numeral (n : Nat) : Numeral (Nat.toDigits 10 n) := by
  have row : Digits (Nat.toDigits 10 n) :=
    ⟨Nat.toDigits_ne_nil, fun c hc => Nat.isDigit_of_mem_toDigits (by decide) (by decide) hc⟩
  have whole : Whole (Nat.toDigits 10 n) := by
    by_cases hn : n = 0
    · exact hn ▸ .zero
    · exact .digits row (digits_head_ne_zero hn)
  simpa using Numeral.mk (s := []) (by simp) whole .absent .absent

theorem digits_isNumber (n : Nat) : IsNumber (Nat.toDigits 10 n) :=
  ⟨(digits_numeral n).start, fun _ hr => (digits_numeral n).read (hr.padded (b := []) nofun)⟩

lemma IsNumber.numeral {t : List Char} (h : IsNumber t) : Numeral t := (number_sound (h.read [] nofun)).2

theorem below_ofNat {n bound : Nat} (h : n < bound) : (ofNat n).below? bound = some n := by
  have digit : (Nat.toDigits 10 n).all Char.isDigit = true := List.all_eq_true.mpr fun c hc =>
    Nat.isDigit_of_mem_toDigits (by decide) (by decide) hc
  have value : digitsValue (Nat.toDigits 10 n) = n := Nat.ofDigitChars_ten_toDigits
  simp [ofNat, below?, digit, value, h]

variable {w t : List Char} {v : Json}

lemma exists_digitChar {c : Char} (h : c.isDigit = true) : ∃ n < 10, c = n.digitChar := by
  obtain ⟨low, high⟩ := Char.isDigit_iff_toNat.mp h
  change 48 ≤ c.toNat at low
  change c.toNat ≤ 57 at high
  have chars : ∀ n < 10, Char.ofNat (48 + n) = n.digitChar := by decide
  refine ⟨c.toNat - 48, by omega, ?_⟩
  rw [← chars _ (by omega), Nat.add_sub_cancel' low, Char.ofNat_toNat]

lemma Digits.decimal (h : Digits w) (start : w.head? ≠ some '0') : Nat.toDigits 10 (digitsValue w) = w := by
  obtain ⟨nonempty, digit⟩ := h
  induction w using List.reverseRecOn with
  | nil => exact absurd rfl nonempty
  | append_singleton ds c ih =>
    obtain ⟨n, hn, rfl⟩ := exists_digitChar (digit c (by simp))
    have value : digitsValue (ds ++ [n.digitChar]) = 10 * digitsValue ds + n := by
      simp [digitsValue, Nat.toNat_digitChar_sub_48_of_lt_ten hn]
    rw [value]
    by_cases hds : ds = []
    · rw [hds]
      simpa [digitsValue] using Nat.toDigits_of_lt_base hn
    · rw [List.head?_append_of_ne_nil _ hds] at start
      have earlier := ih start hds fun c hc => digit c (by simp [hc])
      have positive : 0 < digitsValue ds := by
        refine Nat.pos_of_ne_zero fun zero => start ?_
        rw [← earlier, zero]
        rfl
      rw [← Nat.toDigits_append_toDigits (by decide) positive hn, earlier, Nat.toDigits_of_lt_base hn]

lemma Numeral.decimal (h : Numeral t) (digits : ∀ c ∈ t, c.isDigit = true) :
    Nat.toDigits 10 (digitsValue t) = t := by
  have none {c : Char} (hc : c.isDigit = false) : c ∉ t := fun hm => by simp [digits c hm] at hc
  obtain ⟨signed, whole, fraction, exponent⟩ := h
  rename_i s w f e
  have dot : f = [] := by
    cases fraction with
    | absent => rfl
    | digits => exact absurd (by simp) (none (c := '.') rfl)
  have power : e = [] := by
    cases exponent with
    | absent => rfl
    | @digits e' _ _ letter =>
      have letter : e'.isDigit = false := by rcases letter with rfl | rfl <;> rfl
      exact absurd (by simp) (none letter)
  have sign : s = [] := by
    simp only [List.mem_cons, List.not_mem_nil, or_false] at signed
    rcases signed with rfl | rfl
    · rfl
    · exact absurd (by simp) (none (c := '-') rfl)
  subst dot power sign
  simp only [List.nil_append, List.append_nil]
  cases whole with
  | zero => rfl
  | digits row start => exact row.decimal start

theorem below_spelled {n bound : Nat} (h : Spells (.value v) t) :
    v.below? bound = some n ↔ v = .ofNat n ∧ n < bound := by
  refine ⟨fun below => ?_, fun ⟨hv, hn⟩ => hv ▸ below_ofNat hn⟩
  cases h with
  | number numeral =>
    simp only [below?, Option.ite_none_right_eq_some, Option.some.injEq, Bool.and_eq_true, decide_eq_true_eq,
      List.all_eq_true] at below
    obtain ⟨⟨digits, less⟩, rfl⟩ := below
    exact ⟨congrArg number (numeral.decimal digits).symm, less⟩
  | _ => cases below

end Numbers

section Values

mutual

def Written : Json → Prop
  | number token => IsNumber token
  | string written => IsString written
  | array items => AllWritten items
  | object members => MembersWritten members
  | _ => True

def AllWritten : List Json → Prop
  | [] => True
  | v :: vs => v.Written ∧ AllWritten vs

def MembersWritten : List (List Char × Json) → Prop
  | [] => True
  | (k, v) :: ms => IsString k ∧ v.Written ∧ MembersWritten ms

end

def joined (parts : List (List Char)) : List Char := (parts.intersperse [',']).flatten

lemma joined_one (p : List Char) : joined [p] = p := by simp [joined]

lemma joined_more (p q : List Char) (ps : List (List Char)) :
    joined (p :: q :: ps) = p ++ ',' :: joined (q :: ps) := by
  simp [joined]

lemma spells_padded {v : Json} {t : List Char} (h : Spells (.value v) t) : Spells (.padded v) t := by
  simpa using Spells.padded (a := []) (b := []) nofun h nofun

lemma spells_member {k : List Char} {v : Json} (key : IsString k) (value : Spells (.value v) v.write) :
    Spells (.member k v) (writeString k ++ ':' :: v.write) := by
  obtain ⟨ps, spelling⟩ := key.spelling
  simpa [writeString] using Spells.member (a := []) (b := []) nofun spelling nofun (spells_padded value)

mutual

theorem spells_write : ∀ v : Json, v.Written → Spells (.value v) v.write
  | .null, _ => .null
  | .bool true, _ => .boolTrue
  | .bool false, _ => .boolFalse
  | .number _, h => .number (IsNumber.numeral h)
  | .string _, h => by
    obtain ⟨ps, spelling⟩ := IsString.spelling h
    simpa [write, writeString] using Spells.string spelling
  | .array [], _ => .noItems (b := []) nofun
  | .array (v :: vs), h => by
    simpa [write, enclose, joined] using Spells.array (spells_items (v :: vs) (List.cons_ne_nil v vs) h)
  | .object [], _ => .noMembers (b := []) nofun
  | .object ((k, v) :: ms), h => by
    simpa [write, enclose, joined] using Spells.object (spells_members ((k, v) :: ms) (List.cons_ne_nil _ ms) h)

theorem spells_items : ∀ vs : List Json, vs ≠ [] → AllWritten vs → Spells (.items vs) (joined (writeAll vs))
  | [], h, _ => absurd rfl h
  | [v], _, h => by
    rw [writeAll, writeAll, joined_one]
    exact .lastItem (spells_padded (spells_write v h.1))
  | v :: w :: vs, _, h => by
    rw [writeAll, writeAll, joined_more, ← writeAll]
    exact .moreItems (spells_padded (spells_write v h.1)) (spells_items (w :: vs) (List.cons_ne_nil w vs) h.2)

theorem spells_members : ∀ ms : List (List Char × Json), ms ≠ [] → MembersWritten ms →
    Spells (.members ms) (joined (writeMembers ms))
  | [], h, _ => absurd rfl h
  | [(k, v)], _, h => by
    rw [writeMembers, writeMembers, joined_one]
    exact .lastMember (spells_member h.1 (spells_write v h.2.1))
  | (k, v) :: (l, w) :: ms, _, h => by
    rw [writeMembers, writeMembers, joined_more, ← writeMembers]
    exact .moreMembers (spells_member h.1 (spells_write v h.2.1))
      (spells_members ((l, w) :: ms) (List.cons_ne_nil _ ms) h.2.2)

end

theorem ofText_text {v : Json} (h : v.Written) : ofText? v.text = some v := by
  rw [ofText?, text, String.toList_ofList]
  exact ofChars_spells (spells_padded (spells_write v h))

lemma ofNat_written (n : Nat) : (ofNat n).Written := digits_isNumber n

lemma ofString_written (s : String) : (ofString s).Written := encode_isString s

lemma ofMembers_written {ms : List (String × Json)} (h : ∀ m ∈ ms, m.2.Written) : (ofMembers ms).Written := by
  change MembersWritten (ms.map fun m => (encode m.1, m.2))
  induction ms with
  | nil => trivial
  | cons m ms ih =>
    exact ⟨encode_isString m.1, h m (by simp), ih fun n hn => h n (List.mem_cons_of_mem _ hn)⟩

end Values

end CodeModel.Json
