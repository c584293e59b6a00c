import CodeModel.Proofs.Text.Stored

namespace CodeModel

namespace Json

structure Named (m : List Char × Json) (f : String × Json) : Prop where
  key : ∃ ps, Spelling m.1 ps ∧ Joined ps f.1.toList
  value : m.2 = f.2

def IsObject (text : String) (fields : List (String × Json)) : Prop :=
  ∃ members, Spells (.padded (.object members)) text.toList ∧ List.Forall₂ Named members fields

section Objects

variable {text : String} {t w k : List Char} {v : Json} {members : List (List Char × Json)}
  {fields : List (String × Json)}

lemma Spells.member_parts (h : Spells (.member k v) t) : (∃ ps, Spelling k ps) ∧ ∃ u, Spells (.value v) u := by
  cases h with
  | member _ key _ value =>
    cases value with
    | padded _ value _ => exact ⟨⟨_, key⟩, _, value⟩

lemma Spells.members_parts (h : Spells (.members members) t) :
    ∀ m ∈ members, (∃ ps, Spelling m.1 ps) ∧ ∃ u, Spells (.value m.2) u := by
  induction members generalizing t with
  | nil => cases h
  | cons m members ih =>
    cases h with
    | lastMember last => simpa using last.member_parts
    | moreMembers first rest => exact List.forall_mem_cons.mpr ⟨first.member_parts, ih rest⟩

lemma Spells.object_parts (h : Spells (.padded (.object members)) t) :
    ∀ m ∈ members, (∃ ps, Spelling m.1 ps) ∧ ∃ u, Spells (.value m.2) u := by
  cases h with
  | padded _ value _ =>
    cases value with
    | noMembers => exact nofun
    | object members => exact members.members_parts

lemma decode_sound {ps : List Piece} {s : String} (spelling : Spelling w ps) (h : decode? w = some s) :
    Joined ps s.toList := by
  simp only [decode?, spelling.pieces, Option.bind_eq_bind, Option.bind_some, Option.bind_eq_some_iff, Option.pure_def,
    Option.some.injEq] at h
  obtain ⟨cs, joined, rfl⟩ := h
  simpa using join_sound joined

lemma named_of_forall (h : List.Forall₂ Named members fields) : named? members = some fields := by
  induction h with
  | nil => rfl
  | @cons m f members fields named _ ih =>
    obtain ⟨⟨ps, spelling, joined⟩, value⟩ := named
    have key : decode? m.1 = some f.1 := by simp [decode?, spelling.pieces, joined.join]
    simp [named?, key, ih, value]

lemma forall_of_named (keys : ∀ m ∈ members, ∃ ps, Spelling m.1 ps) (h : named? members = some fields) :
    List.Forall₂ Named members fields := by
  induction members generalizing fields with
  | nil =>
    obtain rfl : [] = fields := by simpa [named?] using h
    exact .nil
  | cons m members ih =>
    obtain ⟨⟨ps, spelling⟩, keys⟩ := List.forall_mem_cons.mp keys
    simp only [named?, Option.bind_eq_bind, Option.bind_eq_some_iff, Option.pure_def, Option.some.injEq] at h
    obtain ⟨name, key, rest, named, rfl⟩ := h
    exact .cons ⟨⟨ps, spelling, decode_sound spelling key⟩, rfl⟩ (ih keys named)

theorem isObject_iff :
    IsObject text fields ↔ ∃ members, ofText? text = some (.object members) ∧ named? members = some fields := by
  refine exists_congr fun members => ?_
  rw [ofText?, ofChars_eq_some]
  exact and_congr_right fun spelled =>
    ⟨named_of_forall, forall_of_named fun m hm => (spelled.object_parts m hm).1⟩

lemma IsObject.value (h : IsObject text fields) {name : String} (hv : (name, v) ∈ fields) :
    ∃ u, Spells (.value v) u := by
  obtain ⟨members, spelled, named⟩ := h
  have values : members.map Prod.snd = fields.map Prod.snd := by
    rw [← List.forall₂_eq_eq_eq, List.forall₂_map_left_iff, List.forall₂_map_right_iff]
    exact named.imp fun _ _ h => h.value
  obtain ⟨m, hm, rfl⟩ : ∃ m ∈ members, m.2 = v := by
    rw [← List.mem_map, values]
    exact List.mem_map.mpr ⟨_, hv, rfl⟩
  exact (spelled.object_parts m hm).2

end Objects

section Fields

variable {α : Type} {fields : List (String × Json)} {name : String} {missing a : α} {read : Json → Option α}

inductive Found (fields : List (String × Json)) (name : String) : Option (Option Json) → Prop
  | absent (count : (fields.map Prod.fst).count name = 0) (nowhere : ∀ v, (name, v) ∉ fields) :
      Found fields name (some none)
  | once {v : Json} (count : (fields.map Prod.fst).count name = 1) (only : ∀ w, (name, w) ∈ fields ↔ w = v) :
      Found fields name (some (some v))
  | repeated (count : 1 < (fields.map Prod.fst).count name) : Found fields name none

lemma field_found (fields : List (String × Json)) (name : String) : Found fields name (field? fields name) := by
  have count : (fields.map Prod.fst).count name = (fields.filter (·.1 == name)).length := by
    rw [List.count, List.countP_map, List.countP_eq_length_filter]
    rfl
  have there (v : Json) : (name, v) ∈ fields ↔ (name, v) ∈ fields.filter (·.1 == name) := by simp
  have named : ∀ m ∈ fields.filter (·.1 == name), m.1 = name := fun m hm => by simpa using (List.mem_filter.mp hm).2
  unfold field?
  generalize fields.filter (·.1 == name) = found at count there named
  match found with
  | [] => exact .absent count fun v => by simp [there]
  | [(other, v)] =>
    obtain rfl : other = name := named (other, v) (by simp)
    exact .once count fun w => by simp [there]
  | _ :: _ :: _ => exact .repeated (by simp [count])

lemma defaulted_isSome : (∃ a, defaulted? fields name missing read = some a) ↔
    (fields.map Prod.fst).count name ≤ 1 ∧ ∀ v, (name, v) ∈ fields → ∃ a, read v = some a := by
  have found := field_found fields name
  unfold defaulted?
  generalize field? fields name = f at found
  cases found with
  | absent count nowhere => simp [count, nowhere]
  | once count only => simp [count, only]
  | repeated count => simp [Nat.not_le_of_lt count]

lemma defaulted_eq_some : defaulted? fields name missing read = some a ↔ (fields.map Prod.fst).count name ≤ 1 ∧
    (∀ v, (name, v) ∈ fields → read v = some a) ∧ (name ∉ fields.map Prod.fst → a = missing) := by
  have found := field_found fields name
  rw [← List.count_eq_zero]
  unfold defaulted?
  generalize field? fields name = f at found
  cases found with
  | absent count nowhere => simp [count, nowhere, eq_comm]
  | once count only => simp [count, only]
  | repeated count => simp [Nat.not_le_of_lt count]

end Fields

section Values

variable {t : List Char} {v : Json}

lemma bool_eq_some {b : Bool} : v.bool? = some b ↔ v = .bool b := by
  cases v <;> simp [bool?]

lemma word64_spelled {n : UInt64} (h : Spells (.value v) t) : v.word64? = some n ↔ v = .ofNat n.toNat := by
  refine ⟨fun read => ?_, fun hv => hv ▸ word64_ofNat n⟩
  obtain ⟨k, below, rfl⟩ := Option.map_eq_some_iff.mp read
  obtain ⟨rfl, less⟩ := (below_spelled h).mp below
  rw [UInt64.toNat_ofNat_of_lt' less]

lemma IsObject.word64 {text name : String} {fields : List (String × Json)} (h : IsObject text fields)
    (hv : (name, v) ∈ fields) {n : UInt64} : v.word64? = some n ↔ v = .ofNat n.toNat := by
  obtain ⟨u, spelled⟩ := h.value hv
  exact word64_spelled spelled

end Values

end Json

namespace Options

open Json

def names : List String := ["preInternCommon", "expectedEntities"]

@[mk_iff]
structure Overrides (o : Options) (fields : List (String × Json)) : Prop where
  common : ∀ v, ("preInternCommon", v) ∈ fields → v = .bool o.preInternCommon
  commonAbsent : "preInternCommon" ∉ fields.map Prod.fst → o.preInternCommon = default.preInternCommon
  expected : ∀ v, ("expectedEntities", v) ∈ fields → v = .ofNat o.expectedEntities.toNat
  expectedAbsent : "expectedEntities" ∉ fields.map Prod.fst → o.expectedEntities = default.expectedEntities

variable {text : String} {fields : List (String × Json)} {o : Options}

lemma parse_fields (h : IsObject text fields) : parse? ofStored? text = some o ↔
    defaulted? fields "preInternCommon" default.preInternCommon bool? = some o.preInternCommon ∧
    defaulted? fields "expectedEntities" default.expectedEntities word64? = some o.expectedEntities := by
  obtain ⟨members, read, named⟩ := isObject_iff.mp h
  simp only [parse?, read, Option.bind_some, ofStored?, named, Option.bind_eq_bind, Option.bind_eq_some_iff,
    Option.pure_def, Option.some.injEq]
  constructor
  · rintro ⟨common, hc, expected, he, rfl⟩
    exact ⟨hc, he⟩
  · rintro ⟨hc, he⟩
    exact ⟨_, hc, _, he, rfl⟩

lemma parse_object (h : IsObject text fields) : parse? ofStored? text = some o ↔
    (∀ name ∈ names, (fields.map Prod.fst).count name ≤ 1) ∧ o.Overrides fields := by
  rw [parse_fields h, defaulted_eq_some, defaulted_eq_some, forall₂_congr fun v hv => h.word64 hv]
  simp only [bool_eq_some, overrides_iff, names, List.forall_mem_cons]
  constructor
  · rintro ⟨⟨once, common, commonAbsent⟩, once', expected, expectedAbsent⟩
    exact ⟨⟨once, once', nofun⟩, common, commonAbsent, expected, expectedAbsent⟩
  · rintro ⟨⟨once, once', -⟩, common, commonAbsent, expected, expectedAbsent⟩
    exact ⟨⟨once, common, commonAbsent⟩, once', expected, expectedAbsent⟩

lemma parse_isSome (h : IsObject text fields) : (∃ o, parse? ofStored? text = some o) ↔
    (∀ name ∈ names, (fields.map Prod.fst).count name ≤ 1) ∧
    (∀ v, ("preInternCommon", v) ∈ fields → ∃ b, v = .bool b) ∧
    ∀ v, ("expectedEntities", v) ∈ fields → ∃ n : UInt64, v = .ofNat n.toNat := by
  have both : (∃ o, parse? ofStored? text = some o) ↔
      (∃ b, defaulted? fields "preInternCommon" default.preInternCommon bool? = some b) ∧
      ∃ n, defaulted? fields "expectedEntities" default.expectedEntities word64? = some n := by
    simp only [parse_fields h]
    exact ⟨fun ⟨o, common, expected⟩ => ⟨⟨_, common⟩, _, expected⟩,
      fun ⟨⟨common, hc⟩, expected, he⟩ => ⟨⟨common, expected⟩, hc, he⟩⟩
  rw [both, defaulted_isSome, defaulted_isSome, forall₂_congr fun v hv => exists_congr fun n => h.word64 hv]
  simp only [bool_eq_some, names, List.forall_mem_cons]
  constructor
  · rintro ⟨⟨once, common⟩, once', expected⟩
    exact ⟨⟨once, once', nofun⟩, common, expected⟩
  · rintro ⟨⟨once, once', -⟩, common, expected⟩
    exact ⟨⟨once, common⟩, once', expected⟩

lemma overrides_of_perm {fields' : List (String × Json)}
    (perm : (fields.filter (·.1 ∈ names)).Perm (fields'.filter (·.1 ∈ names))) :
    ((∀ name ∈ names, (fields.map Prod.fst).count name ≤ 1) ∧ o.Overrides fields) ↔
      (∀ name ∈ names, (fields'.map Prod.fst).count name ≤ 1) ∧ o.Overrides fields' := by
  have there {name : String} (hn : name ∈ names) (v : Json) : (name, v) ∈ fields ↔ (name, v) ∈ fields' := by
    simpa [hn] using perm.mem_iff (a := (name, v))
  have known (fs : List (String × Json)) {name : String} (hn : name ∈ names) :
      ((fs.filter (·.1 ∈ names)).map Prod.fst).count name = (fs.map Prod.fst).count name := by
    rw [← List.count_filter (p := (· ∈ names)) (l := fs.map Prod.fst) (by simpa using hn), List.filter_map]
    rfl
  have count {name : String} (hn : name ∈ names) :
      (fields.map Prod.fst).count name = (fields'.map Prod.fst).count name := by
    rw [← known fields hn, ← known fields' hn, (perm.map Prod.fst).count_eq]
  have absent {name : String} (hn : name ∈ names) : name ∉ fields.map Prod.fst ↔ name ∉ fields'.map Prod.fst := by
    rw [← List.count_eq_zero, count hn, List.count_eq_zero]
  have common : "preInternCommon" ∈ names := by simp [names]
  have expected : "expectedEntities" ∈ names := by simp [names]
  refine and_congr (forall₂_congr fun name hn => by rw [count hn]) ?_
  simp only [overrides_iff, there common, there expected, absent common, absent expected]

/-- The options that are read from the text of an object are the default ones but for its known fields. -/
theorem parse_overrides (h : IsObject text fields) :
    ((∃ o, parse? ofStored? text = some o) ↔
      (∀ name ∈ names, (fields.map Prod.fst).count name ≤ 1) ∧
      (∀ v, ("preInternCommon", v) ∈ fields → ∃ b, v = .bool b) ∧
      ∀ v, ("expectedEntities", v) ∈ fields → ∃ n : UInt64, v = .ofNat n.toNat) ∧
    (∀ o, parse? ofStored? text = some o → o.Overrides fields) ∧
    (∀ text' fields', IsObject text' fields' →
      (fields.filter (·.1 ∈ names)).Perm (fields'.filter (·.1 ∈ names)) →
      parse? ofStored? text' = parse? ofStored? text) ∧
    ∀ text', IsObject text' (fields.filter (·.1 ∉ ["pre_intern_common", "expected_entities"])) →
      parse? ofStored? text' = parse? ofStored? text := by
  have same (text' : String) (fields' : List (String × Json)) (h' : IsObject text' fields')
      (perm : (fields.filter (·.1 ∈ names)).Perm (fields'.filter (·.1 ∈ names))) :
      parse? ofStored? text' = parse? ofStored? text := by
    refine Option.ext fun o => ?_
    rw [parse_object h, parse_object h', overrides_of_perm perm]
  refine ⟨parse_isSome h, fun o ho => ((parse_object h).mp ho).2, same, fun text' h' => same text' _ h' ?_⟩
  rw [List.filter_filter]
  refine .of_eq (List.filter_congr fun m _ => ?_)
  rcases Decidable.em (m.1 ∈ names) with known | unknown
  · simp only [names, List.mem_cons, List.not_mem_nil, or_false] at known
    rcases known with known | known <;> simp [known, names]
  · simp [unknown]

theorem escaped_and_unknown_names :
    parse? ofStored?
      "\x7b \"expected\\u0045ntities\" : 42, \"pre_intern_common\":[null, \x7b\x7d] \x7d" = some ⟨true, 42⟩ ∧
    parse? ofStored? "\x7b\"expectedEntities\":42\x7d" = some ⟨true, 42⟩ := by
  have other : IsObject
      "\x7b \"expected\\u0045ntities\" : 42, \"pre_intern_common\":[null, \x7b\x7d] \x7d"
      [("expectedEntities", .ofNat 42), ("pre_intern_common", .array [.null, .object []])] := by
    refine isObject_iff.mpr ⟨[("expected\\u0045ntities".toList, .ofNat 42),
      ("pre_intern_common".toList, .array [.null, .object []])], ?_, ?_⟩
    · simp only [ofText?, String.reduceToList]
      rfl
    · simp only [String.reduceToList]
      rfl
  have plain : IsObject "\x7b\"expectedEntities\":42\x7d" [("expectedEntities", .ofNat 42)] := by
    refine isObject_iff.mpr ⟨[("expectedEntities".toList, .ofNat 42)], ?_, ?_⟩
    · simp only [ofText?, String.reduceToList]
      rfl
    · simp only [String.reduceToList]
      rfl
  obtain ⟨accepted, overrides, -, style⟩ := parse_overrides other
  obtain ⟨⟨common, expected⟩, read⟩ := accepted.mpr ⟨by decide, by simp, fun v hv => ⟨42, by simpa using hv⟩⟩
  obtain ⟨-, absent, there, -⟩ := overrides _ read
  obtain rfl : common = true := absent (by decide)
  obtain rfl : expected = 42 := by
    have written := congrArg word64? (there (.ofNat (42 : UInt64).toNat) (by simp))
    rw [word64_ofNat, word64_ofNat] at written
    exact (Option.some.inj written).symm
  exact ⟨read, (style _ plain).trans read⟩

end Options

end CodeModel
