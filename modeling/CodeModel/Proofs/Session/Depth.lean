import CodeModel.Proofs.Session.Contract
import CodeModel.Proofs.Session.Sharing
import CodeModel.Proofs.Tables.Stock

namespace CodeModel

variable {h : Hasher} {p q : Provider} {σ τ : Store} {k : Kind} {v w : k.Carrier}

theorem Provider.Sound.same_iff_bare (hp : q.Sound h) (hf : q.Fits h σ) (hk : k.isModel = true)
    (hv : ∀ i ∈ k.parts v, q.Canonical h i) (hw : ∀ i ∈ k.parts w, q.Canonical h i) :
    k.same v w = true ↔ k.bare v = k.bare w := by
  constructor
  · intro same
    refine Store.bare_of_same (σ := σ) hk (fun i hi => ?_) (fun i hi => ?_) same
    · exact (hv i hi).fits hf
    · exact (hw i hi).fits hf
  · intro value
    obtain ⟨outline, -⟩ := Kind.bare_eq_iff.mp value
    apply Kind.same_of_matches outline
    apply hp.parts_matches (i := .entity k ⟨0, v⟩) (j := .entity k ⟨0, w⟩) hk hv hw
    simp [Handle.bare, value]

namespace Session

variable {s : Session} {st st' : Step} {steps : List Step} {m m' d n : Nat} {x y : Handle k.Carrier}

/-- After step `st` entity `x` is as the provider of number `n` prepared it. It was prepared in its register, or the
provider has it in its tables, where interning puts what it has prepared. -/
inductive Readied (s : Session) (st : Step) (n : Nat) (k : Kind) (x : Handle k.Carrier) : Prop
  | prepared {p r : String} {i : Item} : st = .prepare p r → s.number? p = some n →
    Returns s st r none i (.entity k x) → Readied s st n k x
  | entered {b : String × Provider} : b ∈ (step s st).2.2.providers → b.2.number = n → b.2.HasEntry k x →
    Readied s st n k x

lemma Readied.parts (hg : s.Good σ) (hx : Readied s st n k x) :
    ∃ b ∈ (step s st).2.2.providers, b.2.number = n ∧ ∀ i ∈ k.parts x.val, b.2.Canonical s.hasher i := by
  cases hx with
  | prepared hst hn hr =>
    subst hst
    obtain ⟨τ, -, later, -, -, -, b, hb, number, canonical⟩ := hr.yields hn (prepare_makes (hg.withEvents []) _ _)
    have parts := (canonical rfl).2
    rw [later.hasher] at parts
    exact ⟨b, hb, number, parts⟩
  | @entered b hb hn hx =>
    obtain ⟨τ, good, later⟩ := step_reaches hg st
    have sound := good.sound b hb
    rw [later.hasher] at sound
    exact ⟨b, hb, hn, fun i => sound.canonical_part (i := .entity k x) hx⟩

lemma readied_same_iff (hg : s.Good σ) (hk : k.isModel = true) (hst : steps[m]? = some st)
    (hst' : steps[m + d]? = some st') (hx : Readied (s.after (steps.take m)) st n k x)
    (hy : Readied (s.after (steps.take (m + d))) st' n k y) :
    k.same x.val y.val = true ↔ k.bare x.val = k.bare y.val := by
  obtain ⟨τ, good, before⟩ := after_reaches hg (steps.take m)
  obtain ⟨τ', good', before'⟩ := after_reaches hg (steps.take (m + d))
  obtain ⟨b, hb, hbn, parts⟩ := hx.parts good
  obtain ⟨c, hc, hcn, parts'⟩ := hy.parts good'
  obtain ⟨υ, between, first⟩ := step_reaches good st
  rw [← after_succ s hst] at hb between first
  rw [← after_succ s hst', Nat.add_right_comm, List.take_add, after_append] at hc
  obtain ⟨ω, ended, later⟩ := after_reaches between ((steps.drop (m + 1)).take d)
  have grows := later.grows between hb hc (hcn.trans hbn.symm)
  have sound := ended.sound c hc
  have fits := ended.providers c hc
  rw [later.hasher, first.hasher] at sound fits
  rw [first.hasher] at grows
  rw [before'.hasher, ← before.hasher] at parts'
  exact sound.same_iff_bare fits hk (fun i hi => (parts i hi).mono grows) parts'

/-- On prepared entities equality for interning is structural equality, at any two moments of a run. -/
theorem shallow_is_deep (hasher : Hasher) (options : Options) (steps : List Step) (hst : steps[m]? = some st)
    (hst' : steps[m']? = some st') (hk : k.isModel = true)
    (hx : Readied ((start hasher options).after (steps.take m)) st n k x)
    (hy : Readied ((start hasher options).after (steps.take m')) st' n k y) :
    (k.same x.val y.val = true ↔ k.bare x.val = k.bare y.val) ∧
    (k.bare x.val = k.bare y.val → k.fingerprint hasher x.val = k.fingerprint hasher y.val) ∧
    ∀ t a b, t.register? a = some (.entity k x) → t.register? b = some (.entity k y) →
      ((step t (.equals a b)).1 = .equals true true none ↔ k.bare x.val = k.bare y.val) := by
  obtain ⟨σ, good, -⟩ := start_good hasher options []
  have shallow : k.same x.val y.val = true ↔ k.bare x.val = k.bare y.val := by
    rcases Nat.le_total m m' with hle | hle
    · obtain ⟨d, rfl⟩ := Nat.exists_eq_add_of_le hle
      exact readied_same_iff good hk hst hst' hx hy
    · obtain ⟨d, rfl⟩ := Nat.exists_eq_add_of_le hle
      have same := readied_same_iff good hk hst' hst hy hx
      rw [eq_comm (a := k.bare x.val), ← same]
      exact ⟨k.same_equivalence.symm, k.same_equivalence.symm⟩
  refine ⟨shallow, fun value => Provider.fingerprint_congr hk (shallow.mpr value), fun t a b ha hb => ?_⟩
  rw [equals_step ha hb, Provider.contractFailure?_eq_none hk, ← shallow]
  simp only [Answer.equals.injEq, and_true, and_iff_left_iff_imp]
  exact k.same_equivalence.symm

theorem shallow_is_deep_type :
    let a : ItemRecipe := .entity .typeRef (.named "N" "T" [])
    let steps := [.bind "a" a, .prepare "P" "a", .bind "b" a, .intern "P" "b"]
    let v (storage : Nat) : TypeRef := .named ⟨95, "N"⟩ ⟨96, "T"⟩ ⟨false, storage, []⟩
    let s := (start .colliding ⟨false, 0⟩).after steps
    s.register? "a" = some (.entity .typeRef ⟨4, v 3⟩) ∧ s.register? "b" = some (.entity .typeRef ⟨6, v 5⟩) ∧
      Kind.typeRef.same (v 3) (v 5) = true ∧ (step s (.equals "a" "b")).1 = .equals true true none := by
  intro a steps v s
  have first : s.register? "a" = some (.entity .typeRef ⟨4, v 3⟩) := by
    dsimp only [s, steps, a, v]
    rfl
  have second : s.register? "b" = some (.entity .typeRef ⟨6, v 5⟩) := by
    dsimp only [s, steps, a, v]
    rfl
  have prepared : Readied ((start .colliding ⟨false, 0⟩).after (steps.take 1)) (.prepare "P" "a") 0 .typeRef
      ⟨4, v 3⟩ := .prepared rfl rfl ⟨rfl, ⟨_, _, _, rfl⟩, rfl⟩
  have bound : (s.providers.lookup "P").isSome = true := by decide +kernel
  obtain ⟨q, hq⟩ := Option.isSome_iff_exists.mp bound
  have known : (s.providers.lookup "P").map (fun q => (q.number, (q.entities .typeRef).map Entry.entity)) =
      some (0, [SharedType.unknown.handle, SharedType.null.handle, SharedType.dynamic.handle, ⟨6, v 5⟩]) := by
    dsimp only [s, steps, a, v]
    rfl
  rw [hq, Option.map_some, Option.some.injEq, Prod.mk.injEq] at known
  have listed : ⟨6, v 5⟩ ∈ (q.entities .typeRef).map Entry.entity := by simp [known.2]
  have prepares : steps[1]? = some (.prepare "P" "a") := rfl
  have interns : steps[3]? = some (.intern "P" "b") := rfl
  have entered : Readied ((start .colliding ⟨false, 0⟩).after (steps.take 3)) (.intern "P" "b") 0 .typeRef
      ⟨6, v 5⟩ := by
    refine .entered (b := ("P", q)) ?_ known.1 (List.mem_map.mp listed)
    rw [← after_succ _ interns]
    exact mem_of_lookup hq
  obtain ⟨same, -, answer⟩ := shallow_is_deep .colliding ⟨false, 0⟩ steps prepares interns rfl prepared entered
  exact ⟨first, second, same.mpr rfl, (answer s "a" "b" first second).mpr rfl⟩

end Session

end CodeModel
