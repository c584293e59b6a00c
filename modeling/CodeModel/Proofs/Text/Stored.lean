import CodeModel.Json.Stored
import CodeModel.Proofs.Text.Written
import Mathlib.Data.List.Perm.Basic

namespace CodeModel

namespace Json

def parse? {α : Type} (read : Json → Option α) (text : String) : Option α := (ofText? text).bind read

def Holds (members : List (List Char × Json)) (fields : List (String × Json)) : Prop :=
  ∃ ms, named? members = some ms ∧ (ms.filter fun m => m.1 ∈ fields.map Prod.fst).Perm fields

section Members

variable {ms fields : List (String × Json)}

lemma named_encode (ms : List (String × Json)) : named? (ms.map fun m => (encode m.1, m.2)) = some ms := by
  induction ms with
  | nil => rfl
  | cons m ms ih => simp [named?, decode_encode, ih]

lemma holds_ofMembers (fields : List (String × Json)) : Holds (fields.map fun m => (encode m.1, m.2)) fields := by
  refine ⟨fields, named_encode fields, ?_⟩
  rw [List.filter_eq_self.mpr]
  intro m hm
  simpa using ⟨m.2, hm⟩

lemma field_single {name : String} {v : Json} (hm : (name, v) ∈ fields) (hn : (fields.map Prod.fst).Nodup) :
    fields.filter (·.1 == name) = [(name, v)] := by
  induction fields with
  | nil => cases hm
  | cons m fields ih =>
    rw [List.map_cons, List.nodup_cons] at hn
    rcases List.mem_cons.mp hm with rfl | hm
    · have rest : fields.filter (·.1 == name) = [] := List.filter_eq_nil_iff.mpr fun n hf he =>
        hn.1 (List.mem_map.mpr ⟨n, hf, by simpa using he⟩)
      rw [List.filter_cons_of_pos (by simp), rest]
    · have other : m.1 ≠ name := fun he => hn.1 (List.mem_map.mpr ⟨_, hm, he.symm⟩)
      rw [List.filter_cons_of_neg (by simpa using other), ih hm hn.2]

lemma field_of_perm {name : String} {v : Json} (h : (ms.filter fun m => m.1 ∈ fields.map Prod.fst).Perm fields)
    (hn : (fields.map Prod.fst).Nodup) (hm : (name, v) ∈ fields) : field? ms name = some (some v) := by
  have known : ms.filter (·.1 == name) = (ms.filter fun m => m.1 ∈ fields.map Prod.fst).filter (·.1 == name) := by
    rw [List.filter_filter]
    refine List.filter_congr fun m _ => ?_
    by_cases he : m.1 = name
    · simpa [he] using ⟨v, hm⟩
    · simp [he]
  have single := h.filter (·.1 == name)
  rw [field_single hm hn, ← known] at single
  simp [field?, single.eq_singleton]

end Members

/-- Reading and writing belong together. A value is read back from the text it is written to; a text that is accepted
is rewritten in a form that is accepted, means the same and stays as it is. -/
structure RoundTrips {α : Type} (read : Json → Option α) (write : α → Json) (same : α → α → Prop) : Prop where
  back : ∀ v, ∃ w, parse? read (write v).text = some w ∧ same v w
  again : ∀ text v, parse? read text = some v →
    ∃ w, parse? read (write v).text = some w ∧ same v w ∧ (write w).text = (write v).text

/-- A record is the same whether it is an object with its fields, in any order and among any others, or the array of
its fields. -/
def FormsAgree {α : Type} (names : List String) (read : Json → Option α) : Prop :=
  ∀ (t u : String) (members : List (List Char × Json)) (values : List Json), values.length = names.length →
    Holds members (names.zip values) → ofText? t = some (.object members) → ofText? u = some (.array values) →
    parse? read t = parse? read u

lemma RoundTrips.of {α : Type} {read : Json → Option α} {write : α → Json} {same : α → α → Prop}
    (written : ∀ v, (write v).Written) (back : ∀ v, ∃ w, read (write v) = some w ∧ same v w)
    (alike : ∀ v w, same v w → write v = write w) : RoundTrips read write same := by
  have parsed (v : α) : ∃ w, parse? read (write v).text = some w ∧ same v w := by
    obtain ⟨w, hw, hs⟩ := back v
    exact ⟨w, by simp [parse?, ofText_text (written v), hw], hs⟩
  refine ⟨parsed, fun _ v _ => ?_⟩
  obtain ⟨w, hw, hs⟩ := parsed v
  exact ⟨w, hw, hs, by rw [alike v w hs]⟩

lemma FormsAgree.of {α : Type} {names : List String} {read : Json → Option α}
    (h : ∀ members values, values.length = names.length → Holds members (names.zip values) →
      read (.object members) = read (.array values)) : FormsAgree names read := by
  intro t u members values length holds ht hu
  simp [parse?, ht, hu, h members values length holds]

end Json

open Json

section Records

variable {members : List (List Char × Json)}

lemma Location.read_object {line column : Json} (h : Holds members [("line", line), ("column", column)]) :
    ofStored? (.object members) = ofStored? (.array [line, column]) := by
  obtain ⟨ms, named, perm⟩ := h
  have hline : field? ms "line" = some (some line) := field_of_perm perm (by simp) (by simp)
  have hcolumn : field? ms "column" = some (some column) := field_of_perm perm (by simp) (by simp)
  simp [ofStored?, named, required?, hline, hcolumn]

lemma Region.read_object {label : Nat} {file start stop : Json}
    (h : Holds members [("file_name", file), ("begin", start), ("end", stop)]) :
    ofStored? label (.object members) = ofStored? label (.array [file, start, stop]) := by
  obtain ⟨ms, named, perm⟩ := h
  have hfile : field? ms "file_name" = some (some file) := field_of_perm perm (by simp) (by simp)
  have hstart : field? ms "begin" = some (some start) := field_of_perm perm (by simp) (by simp)
  have hstop : field? ms "end" = some (some stop) := field_of_perm perm (by simp) (by simp)
  simp [ofStored?, named, required?, defaulted?, hfile, hstart, hstop]

lemma Options.read_object {common expected : Json}
    (h : Holds members [("preInternCommon", common), ("expectedEntities", expected)]) :
    ofStored? (.object members) = ofStored? (.array [common, expected]) := by
  obtain ⟨ms, named, perm⟩ := h
  have hcommon : field? ms "preInternCommon" = some (some common) := field_of_perm perm (by simp) (by simp)
  have hexpected : field? ms "expectedEntities" = some (some expected) := field_of_perm perm (by simp) (by simp)
  simp [ofStored?, named, defaulted?, hcommon, hexpected]

lemma word32_ofNat (n : UInt32) : (ofNat n.toNat).word32? = some n := by
  simp [word32?, below_ofNat n.toNat_lt]

lemma word64_ofNat (n : UInt64) : (ofNat n.toNat).word64? = some n := by
  simp [word64?, below_ofNat n.toNat_lt]

theorem Location.ofStored_stored (l : Location) : ofStored? l.stored = some l := by
  rw [stored, ofMembers, read_object (holds_ofMembers _)]
  simp [ofStored?, word32_ofNat]

theorem Region.ofStored_stored (label : Nat) (r : Region) :
    ofStored? label r.stored = some (.ofFields label (r.file.map Handle.val) r.start r.stop) := by
  rw [stored, ofMembers, read_object (holds_ofMembers _)]
  cases r.file <;> simp [ofStored?, nullable?, ofString, string?, decode_encode, Location.ofStored_stored]

theorem Options.ofStored_stored (o : Options) : ofStored? o.stored = some o := by
  rw [stored, ofMembers, read_object (holds_ofMembers _)]
  simp [ofStored?, bool?, word64_ofNat]

end Records

lemma Json.case_ofString {α : Type} {cases : List α} {name : α → String}
    (distinct : ∀ c ∈ cases, cases.find? (name · == name c) = some c) {c : α} (hc : c ∈ cases) :
    case? cases name (ofString (name c)) = some c := by
  simp [case?, ofString, decode_encode, distinct c hc]

lemma Accessibility.ofStored_stored (a : Accessibility) : ofStored? a.stored = some a :=
  case_ofString (by decide) (by cases a <;> decide)

lemma TypeKind.ofStored_stored (k : TypeKind) : ofStored? k.stored = some k :=
  case_ofString (by decide) (by cases k <;> decide)

section Agreement

lemma Location.forms_agree : FormsAgree ["line", "column"] ofStored? :=
  .of fun members values length holds => by
    obtain ⟨line, column, rfl⟩ := List.length_eq_two.mp length
    exact read_object holds

lemma Region.forms_agree (label : Nat) : FormsAgree ["file_name", "begin", "end"] (ofStored? label) :=
  .of fun members values length holds => by
    obtain ⟨file, start, stop, rfl⟩ := List.length_eq_three.mp length
    exact read_object holds

lemma Options.forms_agree : FormsAgree ["preInternCommon", "expectedEntities"] ofStored? :=
  .of fun members values length holds => by
    obtain ⟨common, expected, rfl⟩ := List.length_eq_two.mp length
    exact read_object holds

end Agreement

section RoundTrips

lemma Location.stored_written (l : Location) : l.stored.Written :=
  ofMembers_written (by simp [ofNat_written])

lemma Region.stored_written (r : Region) : r.stored.Written := by
  have file : (r.file.elim Json.null fun f => .ofString f.val).Written := by
    cases r.file with
    | none => trivial
    | some f => exact ofString_written f.val
  exact ofMembers_written (by simp [file, Location.stored_written])

lemma Options.stored_written (o : Options) : o.stored.Written :=
  ofMembers_written (by simp [ofNat_written, Written])

lemma Region.stored_congr {r s : Region} (h : r.same s = true) : r.stored = s.stored := by
  obtain ⟨⟨hfile, hstart⟩, hstop⟩ : (r.file.map Handle.val = s.file.map Handle.val ∧ r.start = s.start) ∧
      r.stop = s.stop := by simpa [same] using h
  have file : (r.file.elim Json.null fun f => .ofString f.val) = s.file.elim .null fun f => .ofString f.val := by
    cases hr : r.file <;> cases hs : s.file <;> simp_all
  simp [stored, file, hstart, hstop]

/-- Each value is read back from its text, and every accepted text is rewritten in a form that stays. -/
theorem stored_values_round_trip :
    RoundTrips Location.ofStored? Location.stored (· = ·) ∧
    (∀ label, RoundTrips (Region.ofStored? label) Region.stored fun r s => r.same s = true) ∧
    RoundTrips Accessibility.ofStored? Accessibility.stored (· = ·) ∧
    RoundTrips TypeKind.ofStored? TypeKind.stored (· = ·) ∧
    RoundTrips Options.ofStored? Options.stored (· = ·) ∧
    FormsAgree ["line", "column"] Location.ofStored? ∧
    (∀ label, FormsAgree ["file_name", "begin", "end"] (Region.ofStored? label)) ∧
    FormsAgree ["preInternCommon", "expectedEntities"] Options.ofStored? := by
  refine ⟨?_, fun label => ?_, ?_, ?_, ?_, Location.forms_agree, Region.forms_agree, Options.forms_agree⟩
  · exact .of Location.stored_written (fun l => ⟨l, l.ofStored_stored, rfl⟩) fun _ _ h => h ▸ rfl
  · refine .of Region.stored_written (fun r => ⟨_, r.ofStored_stored label, ?_⟩) fun _ _ => Region.stored_congr
    cases h : r.file <;> simp [Region.same, Region.ofFields, h]
  · exact .of (fun a => ofString_written a.name) (fun a => ⟨a, a.ofStored_stored, rfl⟩) fun _ _ h => h ▸ rfl
  · exact .of (fun k => ofString_written k.name) (fun k => ⟨k, k.ofStored_stored, rfl⟩) fun _ _ h => h ▸ rfl
  · exact .of Options.stored_written (fun o => ⟨o, o.ofStored_stored, rfl⟩) fun _ _ h => h ▸ rfl

theorem location_forms_agree :
    parse? Location.ofStored? (ofMembers [("column", .ofNat 2), ("unit", .null), ("line", .ofNat 1)]).text =
      some ⟨1, 2⟩ := by
  have members := ofText_text (v := ofMembers [("column", .ofNat 2), ("unit", .null), ("line", .ofNat 1)])
    (ofMembers_written (by simp [ofNat_written, Written]))
  have values := ofText_text (v := .array [.ofNat 1, .ofNat 2]) ⟨ofNat_written 1, ofNat_written 2, trivial⟩
  have holds : Holds ([("column", .ofNat 2), ("unit", .null), ("line", .ofNat 1)].map fun m => (encode m.1, m.2))
      [("line", .ofNat 1), ("column", .ofNat 2)] :=
    ⟨_, named_encode _, by simpa using .swap _ _ _⟩
  rw [stored_values_round_trip.2.2.2.2.2.1 _ _ _ _ rfl holds members values]
  have one : (ofNat 1).word32? = some 1 := word32_ofNat 1
  have two : (ofNat 2).word32? = some 2 := word32_ofNat 2
  simp [parse?, values, Location.ofStored?, one, two]

end RoundTrips

end CodeModel
