import CodeModel.Logging
import Mathlib.Data.List.InsertIdx
import Mathlib.Tactic.Lemma

namespace CodeModel

namespace Environment

def Sets (var : Option ByteArray) (t : String) : Prop := var = some t.toUTF8

/-- The text that decides about the filter. A blank one counts too, so that no other is looked at. -/
inductive Chooses (env : Environment) (t : String) : Prop
  | model (set : Sets env.modelLog t)
  | common (unset : ∀ u, ¬ Sets env.modelLog u) (set : Sets env.commonLog t)

lemma readable_eq_some {var : Option ByteArray} {t : String} : readable? var = some t ↔ Sets var t := by
  cases var with
  | none => exact ⟨nofun, nofun⟩
  | some b =>
    by_cases valid : b.IsValidUTF8
    · have read : readable? (some b) = some (String.fromUTF8 b valid) := dif_pos valid
      rw [read]
      constructor
      · rintro ⟨⟩
        rfl
      · rintro ⟨⟩
        rfl
    · have read : readable? (some b) = none := dif_neg valid
      rw [read]
      constructor
      · rintro ⟨⟩
      · rintro ⟨⟩
        exact absurd t.isValidUTF8 valid

lemma chosen_eq_some {env : Environment} {t : String} :
    (readable? env.modelLog).or (readable? env.commonLog) = some t ↔ env.Chooses t := by
  rw [Option.or_eq_some_iff, Option.eq_none_iff_forall_ne_some]
  simp only [ne_eq, readable_eq_some]
  constructor
  · rintro (set | ⟨unset, set⟩)
    · exact .model set
    · exact .common unset set
  · rintro (set | ⟨unset, set⟩)
    · exact .inl set
    · exact .inr ⟨unset, set⟩

end Environment

inductive LogRequest
  | configured (config : LogConfig)
  | environmental (env : Environment)

namespace LogRequest

def config : LogRequest → LogConfig
  | configured c => c
  | environmental env => .ofEnvironment env

inductive Filter : LogRequest → String → Prop
  | configured {c : LogConfig} {t : String} (stated : c.filter = some t) : Filter (configured c) t
  | environmental {env : Environment} {t : String} (chosen : env.Chooses t)
      (shown : ∃ c ∈ t.toList, Text.isBlank c = false) : Filter (environmental env) t

def HasFilter (r : LogRequest) : Prop := ∃ t, r.Filter t

lemma config_filter {r : LogRequest} {t : String} : r.config.filter = some t ↔ r.Filter t := by
  cases r with
  | configured c =>
    constructor
    · exact .configured
    · rintro ⟨stated⟩
      exact stated
  | environmental env =>
    simp only [config, LogConfig.ofEnvironment, Option.filter_eq_some_iff, Environment.chosen_eq_some]
    constructor
    · rintro ⟨chosen, shown⟩
      exact .environmental chosen (by simpa [Text.allBlank] using shown)
    · rintro (_ | ⟨chosen, shown⟩)
      exact ⟨chosen, by simpa [Text.allBlank] using shown⟩

lemma hasFilter_iff {r : LogRequest} : r.HasFilter ↔ r.config.filter.isSome = true := by
  simp only [HasFilter, ← config_filter, Option.isSome_iff_exists]

instance (r : LogRequest) : Decidable r.HasFilter := decidable_of_iff _ hasFilter_iff.symm

end LogRequest

namespace LogOutput

variable {out : LogOutput} {c : LogConfig} {cs : List LogConfig}

def after (out : LogOutput) (cs : List LogConfig) : LogOutput := cs.foldl (fun out c => (out.install c).2) out

lemma install_succeeds : (out.install c).1 = true ↔ out.current = none ∧ c.filter.isSome = true := by
  unfold install
  cases out.current <;> cases c.filter <;> simp

lemma install_vacant : (out.install c).2.current = none ↔ out.current = none ∧ c.filter = none := by
  unfold install
  cases hout : out.current <;> cases c.filter <;> simp [hout]

lemma install_unfiltered (h : c.filter = none) : out.install c = (false, out) := by
  unfold install
  split <;> simp_all

theorem after_vacant : (out.after cs).current = none ↔ out.current = none ∧ ∀ c ∈ cs, c.filter = none := by
  induction cs generalizing out with
  | nil => simp [after]
  | cons c cs ih =>
    rw [after, List.foldl_cons, ← after, ih, install_vacant, List.forall_mem_cons, and_assoc]

lemma length_installAll : (out.installAll cs).length = cs.length := by
  induction cs generalizing out with
  | nil => rfl
  | cons c cs ih => rw [installAll, List.length_cons, ih, List.length_cons]

theorem installAll_answer (i : Nat) :
    (out.installAll cs)[i]? = cs[i]?.map fun c => ((out.after (cs.take i)).install c).1 := by
  induction cs generalizing out i with
  | nil => rfl
  | cons c cs ih =>
    cases i with
    | zero => rfl
    | succ i => simpa [installAll, after] using ih i

theorem installAll_erase {i : Nat} (hc : cs[i]? = some c) (h : c.filter = none) :
    (out.installAll cs).eraseIdx i = out.installAll (cs.eraseIdx i) := by
  induction cs generalizing out i with
  | nil => cases hc
  | cons d cs ih =>
    cases i with
    | zero =>
      obtain rfl : d = c := by simpa using hc
      simp [installAll, install_unfiltered h]
    | succ i => simp [installAll, ih (by simpa using hc)]

end LogOutput

namespace LogRequest

def answers (rs : List LogRequest) : List Bool := LogOutput.absent.installAll (rs.map config)

/-- The request at `i` has a filter, and none before it has one. -/
structure FirstFiltered (rs : List LogRequest) (i : Nat) : Prop where
  filtered : ∃ r, rs[i]? = some r ∧ r.HasFilter
  before : ∀ j < i, ∀ r, rs[j]? = some r → ¬ r.HasFilter

lemma FirstFiltered.unique {rs : List LogRequest} {i j : Nat} (hi : FirstFiltered rs i) (hj : FirstFiltered rs j) :
    i = j := by
  obtain ⟨r, hr, filtered⟩ := hi.filtered
  obtain ⟨q, hq, filtered'⟩ := hj.filtered
  rcases Nat.lt_trichotomy i j with h | h | h
  · exact absurd filtered (hj.before i h r hr)
  · exact h
  · exact absurd filtered' (hi.before j h q hq)

lemma vacant_iff {rs : List LogRequest} {i : Nat} :
    (LogOutput.absent.after ((rs.map config).take i)).current = none ↔
      ∀ j < i, ∀ r, rs[j]? = some r → ¬ r.HasFilter := by
  have unfiltered (r : LogRequest) : ¬ r.HasFilter ↔ r.config.filter = none := by simp [hasFilter_iff]
  rw [LogOutput.after_vacant, ← List.map_take, List.forall_mem_map]
  simp only [unfiltered]
  constructor
  · rintro ⟨-, before⟩ j hj r hr
    exact before r (List.mem_of_getElem? (i := j) (by rw [List.getElem?_take_of_lt hj, hr]))
  · intro before
    refine ⟨rfl, fun r hr => ?_⟩
    obtain ⟨j, hj, rfl⟩ := List.mem_take_iff_getElem.mp hr
    exact before j (by omega) _ (List.getElem?_eq_getElem _)

lemma answer_iff {rs : List LogRequest} {i : Nat} : (answers rs)[i]? = some true ↔ FirstFiltered rs i := by
  rw [answers, LogOutput.installAll_answer]
  simp only [List.getElem?_map, Option.map_map, Option.map_eq_some_iff, Function.comp_apply,
    LogOutput.install_succeeds, vacant_iff, ← hasFilter_iff]
  constructor
  · rintro ⟨r, hr, before, filtered⟩
    exact ⟨⟨r, hr, filtered⟩, before⟩
  · rintro ⟨⟨r, hr, filtered⟩, before⟩
    exact ⟨r, hr, before, filtered⟩

/-- Of all requests that a process makes the first one with a filter succeeds, and no other. -/
theorem first_filtered_installed (rs : List LogRequest) :
    (answers rs).length = rs.length ∧
    (∀ i : Nat, (answers rs)[i]? = some true ↔ FirstFiltered rs i) ∧
    (∀ i j : Nat, (answers rs)[i]? = some true → (answers rs)[j]? = some true → i = j) ∧
    ∀ (i : Nat) r, rs[i]? = some r → ¬ r.HasFilter → (answers rs).eraseIdx i = answers (rs.eraseIdx i) := by
  refine ⟨?_, fun i => answer_iff, fun i j hi hj => (answer_iff.mp hi).unique (answer_iff.mp hj), fun i r hr hn => ?_⟩
  · rw [answers, LogOutput.length_installAll, List.length_map]
  · have unfiltered : r.config.filter = none := by simpa [hasFilter_iff] using hn
    rw [answers, answers, LogOutput.installAll_erase (by rw [List.getElem?_map, hr]; rfl) unfiltered, List.eraseIdx_map]

theorem undecodable_variable_passed_over :
    let blank := environmental ⟨some " ".toUTF8, some "debug".toUTF8, none⟩
    let undecodable := environmental ⟨some ⟨#[0xff]⟩, some "info".toUTF8, none⟩
    let rs := [blank, configured .default, undecodable, configured ⟨some "", .json⟩]
    (answers rs)[2]? = some true ∧ (∀ i : Nat, (answers rs)[i]? = some true → i = 2) ∧
      (answers rs).eraseIdx 0 = answers (rs.eraseIdx 0) := by
  intro blank undecodable rs
  obtain ⟨-, first, unique, erase⟩ := first_filtered_installed rs
  have before : ∀ j < 2, ∀ r, rs[j]? = some r → ¬ r.HasFilter := by decide
  have second := (first 2).mpr ⟨⟨undecodable, rfl, by decide⟩, before⟩
  exact ⟨second, fun i hi => unique i 2 hi second, erase 0 blank rfl (by decide)⟩

end LogRequest

end CodeModel
