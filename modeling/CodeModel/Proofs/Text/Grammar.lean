import CodeModel.Proofs.Text.Tokens

/-! The reader takes every text of the grammar of JSON for the value that it spells, and takes no other text. -/

namespace CodeModel.Json

open Reader

def Blank (b : List Char) : Prop := ∀ c ∈ b, c ∈ [' ', '\t', '\n', '\r']

inductive Phrase
  | value (v : Json)
  | padded (v : Json)
  | items (vs : List Json)
  | member (k : List Char) (v : Json)
  | members (ms : List (List Char × Json))

inductive Spells : Phrase → List Char → Prop
  | null : Spells (.value .null) ['n', 'u', 'l', 'l']
  | boolTrue : Spells (.value (.bool true)) ['t', 'r', 'u', 'e']
  | boolFalse : Spells (.value (.bool false)) ['f', 'a', 'l', 's', 'e']
  | number {t : List Char} (numeral : Numeral t) : Spells (.value (.number t)) t
  | string {w : List Char} {ps : List Piece} (spelling : Spelling w ps) :
      Spells (.value (.string w)) ('"' :: (w ++ ['"']))
  | noItems {b : List Char} (blank : Blank b) : Spells (.value (.array [])) ('[' :: (b ++ [']']))
  | array {vs : List Json} {t : List Char} (items : Spells (.items vs) t) :
      Spells (.value (.array vs)) ('[' :: (t ++ [']']))
  | noMembers {b : List Char} (blank : Blank b) : Spells (.value (.object [])) ('\x7b' :: (b ++ ['\x7d']))
  | object {ms : List (List Char × Json)} {t : List Char} (members : Spells (.members ms) t) :
      Spells (.value (.object ms)) ('\x7b' :: (t ++ ['\x7d']))
  | padded {v : Json} {a t b : List Char} (before : Blank a) (value : Spells (.value v) t) (after : Blank b) :
      Spells (.padded v) (a ++ (t ++ b))
  | lastItem {v : Json} {t : List Char} (item : Spells (.padded v) t) : Spells (.items [v]) t
  | moreItems {v : Json} {vs : List Json} {t u : List Char} (item : Spells (.padded v) t)
      (rest : Spells (.items vs) u) : Spells (.items (v :: vs)) (t ++ ',' :: u)
  | member {k : List Char} {ps : List Piece} {v : Json} {a b t : List Char} (before : Blank a) (key : Spelling k ps)
      (after : Blank b) (value : Spells (.padded v) t) :
      Spells (.member k v) (a ++ '"' :: (k ++ '"' :: (b ++ ':' :: t)))
  | lastMember {k : List Char} {v : Json} {t : List Char} (member : Spells (.member k v) t) :
      Spells (.members [(k, v)]) t
  | moreMembers {k : List Char} {v : Json} {ms : List (List Char × Json)} {t u : List Char}
      (member : Spells (.member k v) t) (rest : Spells (.members ms) u) :
      Spells (.members ((k, v) :: ms)) (t ++ ',' :: u)

section Blanks

variable {a b cs r : List Char} {c : Char}

lemma isSpace_iff : isSpace c = true ↔ c ∈ [' ', '\t', '\n', '\r'] := by simp [isSpace, or_assoc]

lemma skip_blank (h : Blank b) (r : List Char) : skip (b ++ r) = skip r :=
  List.dropWhile_append_of_pos fun c hc => isSpace_iff.mpr (h c hc)

lemma skip_cons (h : isSpace c = false) (r : List Char) : skip (c :: r) = c :: r := by
  simp [skip, h]

lemma skip_to (hb : Blank b) (hc : isSpace c = false) (r : List Char) : skip (b ++ c :: r) = c :: r := by
  rw [skip_blank hb, skip_cons hc]

lemma blank_skip (cs : List Char) : ∃ b, Blank b ∧ cs = b ++ skip cs :=
  ⟨cs.takeWhile isSpace, fun c hc => isSpace_iff.mp (List.all_eq_true.mp List.all_takeWhile c hc),
    List.takeWhile_append_dropWhile.symm⟩

lemma skip_skip (cs : List Char) : skip (skip cs) = skip cs := by
  obtain ⟨b, blank, h⟩ := blank_skip cs
  have skipped := skip_blank blank (skip cs)
  rwa [← h, eq_comm] at skipped

lemma value_skip (fuel : Nat) (cs : List Char) : value? fuel (skip cs) = value? fuel cs := by
  cases fuel with
  | zero => rfl
  | succ fuel => rw [value?, value?, skip_skip]

lemma items_skip (fuel : Nat) (cs : List Char) : items? fuel (skip cs) = items? fuel cs := by
  cases fuel with
  | zero => rfl
  | succ fuel => rw [items?, items?, value_skip]

lemma members_skip (fuel : Nat) (cs : List Char) : members? fuel (skip cs) = members? fuel cs := by
  cases fuel with
  | zero => rfl
  | succ fuel => rw [members?, members?, skip_skip]

end Blanks

section Completeness

def EndsValue (r : List Char) : Prop := ∀ c ∈ r.head?, c = ',' ∨ c = ']' ∨ c = '\x7d'

variable {v : Json} {vs : List Json} {k t r b : List Char} {ms : List (List Char × Json)} {p : Phrase}

lemma EndsValue.padded (h : EndsValue r) (hb : Blank b) : EndsNumeral (b ++ r) := by
  intro c hc
  cases b with
  | nil => rcases h c hc with rfl | rfl | rfl <;> decide
  | cons d b =>
    obtain rfl := Option.some.inj hc
    have hd := hb d (by simp)
    simp only [List.mem_cons, List.not_mem_nil, or_false] at hd
    rcases hd with rfl | rfl | rfl | rfl <;> decide

lemma Spells.value_start (h : Spells (.value v) t) :
    ∃ c u, t = c :: u ∧ isSpace c = false ∧ c ≠ ']' ∧ c ≠ '\x7d' := by
  cases h with
  | number numeral =>
    obtain ⟨c, u, rfl, ne⟩ := numeral.start_ne
    refine ⟨c, u, rfl, ?_, ne _ (by decide) rfl, ne _ (by decide) rfl⟩
    simp [isSpace, ne ' ' (by decide) rfl, ne '\t' (by decide) rfl, ne '\n' (by decide) rfl, ne '\r' (by decide) rfl]
  | _ => exact ⟨_, _, rfl, rfl, by decide⟩

lemma Spells.padded_start (h : Spells (.padded v) t) (r : List Char) : ∃ c u, skip (t ++ r) = c :: u ∧ c ≠ ']' := by
  cases h with
  | padded before value after =>
    obtain ⟨c, u, rfl, space, close, -⟩ := value.value_start
    rw [List.append_assoc, skip_blank before]
    exact ⟨c, _, skip_cons space _, close⟩

lemma Spells.items_start (h : Spells (.items vs) t) (r : List Char) : ∃ c u, skip (t ++ r) = c :: u ∧ c ≠ ']' := by
  cases h with
  | lastItem item => exact item.padded_start r
  | moreItems item rest =>
    rw [List.append_assoc]
    exact item.padded_start _

lemma Spells.member_start (h : Spells (.member k v) t) (r : List Char) : ∃ u, skip (t ++ r) = '"' :: u := by
  cases h with
  | member before key after value =>
    rw [List.append_assoc, skip_blank before]
    exact ⟨_, skip_cons rfl _⟩

lemma Spells.members_start (h : Spells (.members ms) t) (r : List Char) : ∃ u, skip (t ++ r) = '"' :: u := by
  cases h with
  | lastMember member => exact member.member_start r
  | moreMembers member rest =>
    rw [List.append_assoc]
    exact member.member_start _

def Takes : Phrase → List Char → Prop
  | .value v, t => ∀ fuel r, t.length ≤ fuel → EndsNumeral r → value? fuel (t ++ r) = some (v, r)
  | .padded v, t => ∀ fuel r, t.length ≤ fuel → EndsValue r →
      ∃ b, Blank b ∧ value? fuel (t ++ r) = some (v, b ++ r)
  | .items vs, t => ∀ fuel r, t.length < fuel → items? fuel (t ++ ']' :: r) = some (vs, r)
  | .member k v, t => ∀ fuel r, t.length ≤ fuel →
      members? (fuel + 1) (t ++ '\x7d' :: r) = some ([(k, v)], r) ∧
      members? (fuel + 1) (t ++ ',' :: r) = (members? fuel r).map fun m => ((k, v) :: m.1, m.2)
  | .members ms, t => ∀ fuel r, t.length < fuel → members? fuel (t ++ '\x7d' :: r) = some (ms, r)

lemma value_plain {c : Char} {u : List Char} (space : isSpace c = false) (ha : c ≠ '[') (ho : c ≠ '\x7b')
    (fuel : Nat) : value? (fuel + 1) (c :: u) = plain? (c :: u) := by
  rw [value?, skip_cons space]
  split
  next h => exact absurd (List.cons.inj h).1 ha
  next h => exact absurd (List.cons.inj h).1 ho
  next => rfl

lemma number_taken {t : List Char} (h : Numeral t) (hr : EndsNumeral r) (fuel : Nat) :
    value? (fuel + 1) (t ++ r) = some (.number t, r) := by
  obtain ⟨c, u, ht, space, -⟩ := (Spells.number h).value_start
  obtain ⟨d, u', hd, ne⟩ := h.start_ne
  obtain ⟨rfl, rfl⟩ := List.cons.inj (ht.symm.trans hd)
  have read := h.read hr
  rw [ht, List.cons_append] at read ⊢
  rw [value_plain space (ne _ (by decide) rfl) (ne _ (by decide) rfl)]
  unfold plain?
  split
  next e => exact absurd (List.cons.inj e).1 (ne _ (by decide) rfl)
  next e => exact absurd (List.cons.inj e).1 (ne _ (by decide) rfl)
  next e => exact absurd (List.cons.inj e).1 (ne _ (by decide) rfl)
  next e => exact absurd (List.cons.inj e).1 (ne _ (by decide) rfl)
  next => rw [read]; rfl

lemma array_taken (h : Spells (.items vs) t) (items : Takes (.items vs) t) {fuel : Nat} (hf : t.length < fuel)
    (r : List Char) : value? (fuel + 1) ('[' :: (t ++ ']' :: r)) = some (.array vs, r) := by
  obtain ⟨c, u, start, close⟩ := h.items_start (']' :: r)
  have read := items fuel r hf
  rw [← items_skip, start] at read
  rw [value?, skip_cons rfl]
  simp only [start]
  split
  next e => exact absurd (List.cons.inj e).1 close
  next => rw [read]; rfl

lemma object_taken (h : Spells (.members ms) t) (members : Takes (.members ms) t) {fuel : Nat} (hf : t.length < fuel)
    (r : List Char) : value? (fuel + 1) ('\x7b' :: (t ++ '\x7d' :: r)) = some (.object ms, r) := by
  obtain ⟨u, start⟩ := h.members_start ('\x7d' :: r)
  have read := members fuel r hf
  rw [← members_skip, start] at read
  rw [value?, skip_cons rfl]
  simp only [start]
  change (members? fuel ('"' :: u)).map _ = _
  rw [read]
  rfl

lemma taken_value (h : Spells (.value v) t)
    (read : ∀ fuel r, t.length ≤ fuel + 1 → EndsNumeral r → value? (fuel + 1) (t ++ r) = some (v, r)) :
    Takes (.value v) t := by
  rintro (_ | fuel) r hf hr
  · obtain ⟨c, u, rfl, -⟩ := h.value_start
    simp at hf
  · exact read fuel r hf hr

theorem Spells.taken (h : Spells p t) : Takes p t := by
  -- The fuel goes down by one with each phrase. A list needs one more than its characters, and its brackets pay for it.
  induction h with
  | null => exact taken_value .null fun _ _ _ _ => rfl
  | boolTrue => exact taken_value .boolTrue fun _ _ _ _ => rfl
  | boolFalse => exact taken_value .boolFalse fun _ _ _ _ => rfl
  | number numeral => exact taken_value (.number numeral) fun fuel r _ hr => number_taken numeral hr fuel
  | string spelling =>
    refine taken_value (.string spelling) fun fuel r _ _ => ?_
    rw [List.cons_append, List.append_assoc, value_plain rfl (by decide) (by decide)]
    simp [plain?, spelling.read]
  | noItems blank =>
    refine taken_value (.noItems blank) fun fuel r _ _ => ?_
    rw [List.cons_append, List.append_assoc, value?, skip_cons rfl]
    simp only [skip_blank blank]
    rfl
  | array items ih =>
    refine taken_value (.array items) fun fuel r hf _ => ?_
    rw [List.cons_append, List.append_assoc]
    exact array_taken items ih (by simp at hf; omega) r
  | noMembers blank =>
    refine taken_value (.noMembers blank) fun fuel r _ _ => ?_
    rw [List.cons_append, List.append_assoc, value?, skip_cons rfl]
    simp only [skip_blank blank]
    rfl
  | object members ih =>
    refine taken_value (.object members) fun fuel r hf _ => ?_
    rw [List.cons_append, List.append_assoc]
    exact object_taken members ih (by simp at hf; omega) r
  | @padded v a t b before value after ih =>
    intro fuel r hf hr
    refine ⟨b, after, ?_⟩
    rw [← value_skip, List.append_assoc, skip_blank before, value_skip, List.append_assoc]
    exact ih fuel (b ++ r) (by simp at hf; omega) (hr.padded after)
  | @lastItem v t _ ih =>
    rintro (_ | fuel) r hf
    · cases hf
    · obtain ⟨b, blank, read⟩ := ih fuel (']' :: r) (by omega) (by simp [EndsValue])
      simp only [items?, read, Option.bind_eq_bind, Option.bind_some, skip_to blank (c := ']') rfl]
      rfl
  | @moreItems v vs t u _ _ item rest =>
    rintro (_ | fuel) r hf
    · cases hf
    · rw [List.length_append, List.length_cons] at hf
      obtain ⟨b, blank, read⟩ := item fuel (',' :: (u ++ ']' :: r)) (by omega) (by simp [EndsValue])
      rw [List.append_assoc, List.cons_append]
      simp only [items?, read, Option.bind_eq_bind, Option.bind_some, skip_to blank (c := ',') rfl,
        rest fuel r (by omega)]
      rfl
  | @member k ps v a b t before key after _ ih =>
    intro fuel r hf
    have taken (x : List Char) (hx : EndsValue x) : ∃ d, Blank d ∧ value? fuel (t ++ x) = some (v, d ++ x) :=
      ih fuel x (by simp at hf; omega) hx
    have opened (x : List Char) : skip (a ++ '"' :: (k ++ '"' :: (b ++ ':' :: t)) ++ x) =
        '"' :: (k ++ '"' :: (b ++ ':' :: (t ++ x))) := by
      rw [List.append_assoc, skip_blank before, List.cons_append, skip_cons rfl]
      simp
    constructor
    · obtain ⟨d, blank, read⟩ := taken ('\x7d' :: r) (by simp [EndsValue])
      rw [members?, opened]
      simp only [key.read, Option.bind_eq_bind, Option.bind_some, skip_to after (c := ':') rfl, read,
        skip_to blank (c := '\x7d') rfl]
      rfl
    · obtain ⟨d, blank, read⟩ := taken (',' :: r) (by simp [EndsValue])
      rw [members?, opened]
      simp only [key.read, Option.bind_eq_bind, Option.bind_some, skip_to after (c := ':') rfl, read,
        skip_to blank (c := ',') rfl]
      cases members? fuel r <;> rfl
  | lastMember _ ih =>
    rintro (_ | fuel) r hf
    · cases hf
    · exact (ih fuel r (by omega)).1
  | @moreMembers k v ms t u _ _ member rest =>
    rintro (_ | fuel) r hf
    · cases hf
    · rw [List.length_append, List.length_cons] at hf
      rw [List.append_assoc, List.cons_append, (member fuel _ (by omega)).2, rest fuel r (by omega)]
      rfl

theorem ofChars_spells (h : Spells (.padded v) t) : ofChars? t = some v := by
  obtain ⟨b, blank, read⟩ := h.taken (2 * t.length + 2) [] (by omega) (by simp [EndsValue])
  rw [List.append_nil, List.append_nil] at read
  have nothing : skip b = [] := List.append_nil b ▸ skip_blank blank []
  rw [ofChars?, read]
  simp [nothing]

end Completeness

section Soundness

variable {fuel : Nat}

structure Sound (fuel : Nat) : Prop where
  value : ∀ {cs v r}, value? fuel cs = some (v, r) → ∃ a t, Blank a ∧ Spells (.value v) t ∧ cs = a ++ (t ++ r)
  items : ∀ {cs vs r}, items? fuel cs = some (vs, r) → ∃ t, Spells (.items vs) t ∧ cs = t ++ ']' :: r
  members : ∀ {cs ms r}, members? fuel cs = some (ms, r) → ∃ t, Spells (.members ms) t ∧ cs = t ++ '\x7d' :: r

lemma after_sound {w cs r : List Char} (h : after? w cs = some r) : cs = w ++ r := by
  induction w generalizing cs with
  | nil => exact Option.some.inj h
  | cons c w ih =>
    cases cs with
    | nil => cases h
    | cons d cs =>
      rw [after?, Option.ite_none_right_eq_some] at h
      rw [h.1, List.cons_append, ← ih h.2]

lemma plain_sound {cs r : List Char} {v : Json} (h : plain? cs = some (v, r)) :
    ∃ t, Spells (.value v) t ∧ cs = t ++ r := by
  unfold plain? at h
  split at h
  all_goals
    obtain ⟨x, hx, he⟩ := Option.map_eq_some_iff.mp h
    obtain ⟨rfl, rfl⟩ := Prod.mk.inj he
  · exact ⟨_, .null, by rw [after_sound hx]; rfl⟩
  · exact ⟨_, .boolTrue, by rw [after_sound hx]; rfl⟩
  · exact ⟨_, .boolFalse, by rw [after_sound hx]; rfl⟩
  · obtain ⟨rfl, ps, spelling⟩ := string_sound hx
    exact ⟨_, .string spelling, by simp⟩
  · obtain ⟨rfl, numeral⟩ := number_sound hx
    exact ⟨_, .number numeral, rfl⟩

lemma Sound.value_succ (h : Sound fuel) {cs r : List Char} {v : Json} (hv : value? (fuel + 1) cs = some (v, r)) :
    ∃ a t, Blank a ∧ Spells (.value v) t ∧ cs = a ++ (t ++ r) := by
  obtain ⟨a, before, split⟩ := blank_skip cs
  suffices ∃ t, Spells (.value v) t ∧ skip cs = t ++ r by
    obtain ⟨t, spells, rest⟩ := this
    exact ⟨a, t, before, spells, rest ▸ split⟩
  rw [value?] at hv
  split at hv
  next x hx =>
    rw [hx]
    obtain ⟨b, blank, inner⟩ := blank_skip x
    split at hv
    next y hy =>
      obtain ⟨rfl, rfl⟩ : Json.array [] = v ∧ y = r := by simpa using hv
      exact ⟨_, .noItems blank, by rw [inner, hy]; simp⟩
    next =>
      obtain ⟨⟨vs, r'⟩, hvs, he⟩ := Option.map_eq_some_iff.mp hv
      obtain ⟨rfl, rfl⟩ := Prod.mk.inj he
      rw [items_skip] at hvs
      obtain ⟨t, items, rfl⟩ := h.items hvs
      exact ⟨_, .array items, by simp⟩
  next x hx =>
    rw [hx]
    obtain ⟨b, blank, inner⟩ := blank_skip x
    split at hv
    next y hy =>
      obtain ⟨rfl, rfl⟩ : Json.object [] = v ∧ y = r := by simpa using hv
      exact ⟨_, .noMembers blank, by rw [inner, hy]; simp⟩
    next =>
      obtain ⟨⟨ms, r'⟩, hms, he⟩ := Option.map_eq_some_iff.mp hv
      obtain ⟨rfl, rfl⟩ := Prod.mk.inj he
      rw [members_skip] at hms
      obtain ⟨t, members, rfl⟩ := h.members hms
      exact ⟨_, .object members, by simp⟩
  next => exact plain_sound hv

lemma Sound.padded (h : Sound fuel) {cs r : List Char} {v : Json} (hv : value? fuel cs = some (v, r)) :
    ∃ t, Spells (.padded v) t ∧ cs = t ++ skip r := by
  obtain ⟨a, t, before, value, rfl⟩ := h.value hv
  obtain ⟨b, after, hr⟩ := blank_skip r
  refine ⟨_, .padded before value after, ?_⟩
  rw [List.append_assoc, List.append_assoc, ← hr]

lemma Sound.items_succ (h : Sound fuel) {cs r : List Char} {vs : List Json}
    (hvs : items? (fuel + 1) cs = some (vs, r)) : ∃ t, Spells (.items vs) t ∧ cs = t ++ ']' :: r := by
  rw [items?] at hvs
  obtain ⟨⟨v, x⟩, hv, next⟩ := Option.bind_eq_some_iff.mp hvs
  obtain ⟨t, item, rfl⟩ := h.padded hv
  dsimp only at next
  split at next
  case h_1 y hy =>
    obtain ⟨⟨ws, z⟩, hws, he⟩ := Option.bind_eq_some_iff.mp next
    obtain ⟨rfl, rfl⟩ : v :: ws = vs ∧ z = r := by simpa using he
    obtain ⟨u, rest, rfl⟩ := h.items hws
    exact ⟨_, .moreItems item rest, by rw [hy]; simp⟩
  case h_2 y hy =>
    obtain ⟨rfl, rfl⟩ : [v] = vs ∧ y = r := by simpa using next
    exact ⟨_, .lastItem item, by rw [hy]⟩
  case h_3 => cases next

lemma Sound.members_succ (h : Sound fuel) {cs r : List Char} {ms : List (List Char × Json)}
    (hms : members? (fuel + 1) cs = some (ms, r)) : ∃ t, Spells (.members ms) t ∧ cs = t ++ '\x7d' :: r := by
  obtain ⟨a, before, hcs⟩ := blank_skip cs
  rw [members?] at hms
  split at hms
  case h_2 => cases hms
  case h_1 x hx =>
    obtain ⟨⟨k, y⟩, hk, colon⟩ := Option.bind_eq_some_iff.mp hms
    obtain ⟨rfl, ps, key⟩ := string_sound hk
    obtain ⟨b, after, hy⟩ := blank_skip y
    dsimp only at colon
    split at colon
    case h_2 => cases colon
    case h_1 z hz =>
      obtain ⟨⟨v, x⟩, hv, next⟩ := Option.bind_eq_some_iff.mp colon
      obtain ⟨t, value, rfl⟩ := h.padded hv
      have member := Spells.member before key after value
      rw [hx, hy, hz] at hcs
      dsimp only at next
      split at next
      case h_1 w hw =>
        obtain ⟨⟨ns, z⟩, hns, he⟩ := Option.bind_eq_some_iff.mp next
        obtain ⟨rfl, rfl⟩ : (k, v) :: ns = ms ∧ z = r := by simpa using he
        obtain ⟨u, rest, rfl⟩ := h.members hns
        exact ⟨_, .moreMembers member rest, by rw [hcs, hw]; simp⟩
      case h_2 w hw =>
        obtain ⟨rfl, rfl⟩ : [(k, v)] = ms ∧ w = r := by simpa using next
        exact ⟨_, .lastMember member, by rw [hcs, hw]; simp⟩
      case h_3 => cases next

theorem sound (fuel : Nat) : Sound fuel := by
  induction fuel with
  | zero => exact ⟨nofun, nofun, nofun⟩
  | succ fuel ih => exact ⟨ih.value_succ, ih.items_succ, ih.members_succ⟩

theorem ofChars_eq_some {t : List Char} {v : Json} : ofChars? t = some v ↔ Spells (.padded v) t := by
  refine ⟨fun h => ?_, ofChars_spells⟩
  simp only [ofChars?, Option.bind_eq_bind, Option.bind_eq_some_iff, Prod.exists, Option.ite_none_right_eq_some,
    Option.some.injEq] at h
  obtain ⟨w, r, hw, empty, rfl⟩ := h
  obtain ⟨t', padded, rfl⟩ := (sound _).padded hw
  rw [List.isEmpty_iff.mp empty, List.append_nil]
  exact padded

end Soundness

end CodeModel.Json
