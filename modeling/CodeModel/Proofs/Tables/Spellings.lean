import CodeModel.Proofs.Tables.Pool
import CodeModel.Session.Pool
import Mathlib.Data.Finset.Card

/-! A text pool stands for one plain map from spellings to handles, under any sequence of uses. -/

namespace CodeModel

open Session (PoolOutcome)

@[ext]
structure Spellings where
  handle : String → Option Text
  spelled : ∀ {s t}, handle s = some t → t.val = s
  empty : handle "" = some Text.empty

namespace Spellings

def initial : Spellings where
  handle s := if s = "" then some Text.empty else none
  spelled hs := by
    obtain ⟨he, ht⟩ := Option.ite_none_right_eq_some.mp hs
    rw [← Option.some.inj ht, he]
    rfl
  empty := rfl

/-- Offers texts in their order. The first one of a spelling becomes its handle, unless it has one. -/
def enter (m : Spellings) (ts : List Text) : Spellings where
  handle s := (m.handle s).or (ts.find? (·.val == s))
  spelled {s t} hs := by
    rcases Option.or_eq_some_iff.mp hs with hs | ⟨-, hs⟩
    · exact m.spelled hs
    · simpa using List.find?_some hs
  empty := by rw [m.empty, Option.some_or]

variable {m : Spellings} {s : String} {t u : Text} {ts us : List Text}

@[simp] lemma enter_nil (m : Spellings) : m.enter [] = m := by
  ext1
  funext s
  simp [enter]

lemma enter_append (m : Spellings) (ts us : List Text) : m.enter (ts ++ us) = (m.enter ts).enter us := by
  ext1
  funext s
  simp [enter, Option.or_assoc]

lemma enter_old (h : m.handle s = some t) (ts : List Text) : (m.enter ts).handle s = some t := by
  simp [enter, h]

lemma enter_one (m : Spellings) (t : Text) :
    (m.enter [t]).handle t.val = some ((m.handle t.val).getD t) := by
  cases h : m.handle t.val <;> simp [enter, h]

lemma enter_same (h : ∀ t ∈ ts, (m.handle t.val).isSome = true) : m.enter ts = m := by
  ext1
  funext s
  cases hs : m.handle s with
  | some t => exact enter_old hs ts
  | none =>
    simp only [enter, hs, Option.none_or, List.find?_eq_none]
    rintro t ht he
    obtain rfl : t.val = s := by simpa using he
    simpa [hs] using h t ht

lemma initial_enter (hs : s ≠ "") (ts : List Text) : (initial.enter ts).handle s = ts.find? (·.val == s) := by
  simp [enter, initial, hs]

lemma isSome_handle : ((initial.enter ts).handle s).isSome = true ↔ s = "" ∨ ∃ t ∈ ts, t.val = s := by
  by_cases hs : s = ""
  · subst hs
    simp [empty]
  · simp [initial_enter hs, hs]

end Spellings

namespace TextPool

inductive Use where
  | intern (label : Nat) (s : String)
  | fetch (label : Nat) (s : String)
  | adopt (t : Text)
  | get (s : String)
  | isPooled (t : Text)
  | internCommon (label : Nat)
  | size
  | file (r : Region)

def use (h : Hasher) (p : TextPool) : Use → PoolOutcome × TextPool
  | .intern label s => let (t, p) := p.intern h label s; (.ofText t, p)
  | .fetch label s => let (t, p) := p.fetch h label s; (.ofText t, p)
  | .adopt t => let (u, p) := p.adopt h t; ({ PoolOutcome.ofText u with adopted := some (u.id == t.id) }, p)
  | .get s => let t := p.find? h s; ({ PoolOutcome.nothing with result := t, found := some t.isSome }, p)
  | .isPooled t => ({ PoolOutcome.nothing with pooled := some (p.isPooled h t) }, p)
  | .internCommon label => (.nothing, p.internCommon h label)
  | .size => (.nothing, p)
  | .file r => Session.poolFile h p r

def uses (h : Hasher) (p : TextPool) (us : List Use) : TextPool := us.foldl (fun p u => (p.use h u).2) p

namespace Use

def spelling? : Use → Option String
  | intern _ s | fetch _ s | get s => some s
  | adopt t => some t.val
  | _ => none

def offers : Use → List Text
  | intern label s | fetch label s => [⟨label, s⟩]
  | adopt t => [t]
  | internCommon label => (commonTexts.zipIdx label).map fun q => ⟨q.2, q.1⟩
  | file r => r.file.toList
  | _ => []

end Use

end TextPool

def Spellings.answer (m : Spellings) : TextPool.Use → PoolOutcome
  | .intern label s | .fetch label s => .ofText ((m.handle s).getD ⟨label, s⟩)
  | .adopt t =>
    let u := (m.handle t.val).getD t
    { PoolOutcome.ofText u with adopted := some (u.id == t.id) }
  | .get s => { PoolOutcome.nothing with result := m.handle s, found := some (m.handle s).isSome }
  | .isPooled t => { PoolOutcome.nothing with pooled := some (decide (m.handle t.val = some t)) }
  | .internCommon _ | .size => .nothing
  | .file r => match r.file with
    | none => { PoolOutcome.nothing with file := some (false, true, r.display) }
    | some f =>
      let g := (m.handle f.val).getD f
      let q := { r with file := some g }
      { PoolOutcome.nothing with file := some (g.id != f.id, r.same q, q.display) }

namespace TextPool

variable {h : Hasher}

def spellings (h : Hasher) (p : TextPool) : Spellings where
  handle := p.find? h
  spelled := find?_val h
  empty := find?_empty_text h p

lemma spellings_empty : TextPool.empty.spellings h = .initial := by
  ext1
  funext s
  by_cases hs : s = ""
  · rw [hs, Spellings.empty, Spellings.empty]
  · simp [spellings, find?, empty, Spellings.initial, Vector.get, hs]

lemma spellings_adopt (p : TextPool) (t : Text) : (p.adopt h t).2.spellings h = (p.spellings h).enter [t] := by
  ext1
  funext s
  cases hf : p.find? h t.val with
  | some u =>
    have known : ∀ v ∈ [t], ((p.spellings h).handle v.val).isSome = true := by simp [spellings, hf]
    rw [adopt_old h hf, Spellings.enter_same known]
  | none =>
    simp only [spellings, Spellings.enter, find?_adopt_new h hf, List.find?_cons, List.find?_nil]
    by_cases hs : s = t.val
    · simp [hs, hf]
    · have other : (t.val == s) = false := by simpa using Ne.symm hs
      simp [hs, other]

lemma adopt_eq (p : TextPool) (t : Text) : (p.adopt h t).1 = ((p.spellings h).handle t.val).getD t := by
  have found : ((p.adopt h t).2.spellings h).handle t.val = some (p.adopt h t).1 := find?_adopt h p t
  rw [spellings_adopt, Spellings.enter_one, Option.some.injEq] at found
  exact found.symm

lemma spellings_internAll (p : TextPool) (label : Nat) (ss : List String) :
    (p.internAll h label ss).spellings h =
      (p.spellings h).enter ((ss.zipIdx label).map fun q => ⟨q.2, q.1⟩) := by
  induction ss generalizing p label with
  | nil => exact (Spellings.enter_nil _).symm
  | cons s ss ih =>
    rw [internAll, ih, intern, spellings_adopt, ← Spellings.enter_append]
    rfl

lemma isPooled_eq (p : TextPool) (t : Text) :
    p.isPooled h t = decide ((p.spellings h).handle t.val = some t) := by
  rw [Bool.eq_iff_iff, decide_eq_true_eq]
  simp only [isPooled, spellings, Option.any_eq_true, beq_iff_eq]
  constructor
  · rintro ⟨u, hu, hid⟩
    obtain ⟨id, v⟩ := u
    obtain ⟨id', v'⟩ := t
    obtain rfl : id = id' := hid
    obtain rfl : v = v' := find?_val h hu
    exact hu
  · exact fun ht => ⟨t, ht, rfl⟩

theorem use_spec (p : TextPool) (u : Use) :
    (p.use h u).1 = (p.spellings h).answer u ∧ (p.use h u).2.spellings h = (p.spellings h).enter u.offers := by
  cases u with
  | intern label s => exact ⟨congrArg PoolOutcome.ofText (adopt_eq p ⟨label, s⟩), spellings_adopt p _⟩
  | fetch label s =>
    simp only [use, fetch_eq]
    exact ⟨congrArg PoolOutcome.ofText (adopt_eq p ⟨label, s⟩), spellings_adopt p _⟩
  | adopt t =>
    refine ⟨?_, spellings_adopt p t⟩
    simp only [use, Spellings.answer, adopt_eq]
  | get s => exact ⟨rfl, (Spellings.enter_nil _).symm⟩
  | isPooled t =>
    refine ⟨?_, (Spellings.enter_nil _).symm⟩
    simp only [use, Spellings.answer, isPooled_eq]
  | internCommon label =>
    refine ⟨rfl, ?_⟩
    simp only [use, internCommon, spellings_internAll, Use.offers]
  | size => exact ⟨rfl, (Spellings.enter_nil _).symm⟩
  | file r =>
    cases hr : r.file with
    | none => simp [use, Session.poolFile, Spellings.answer, Use.offers, hr]
    | some f => simp [use, Session.poolFile, Spellings.answer, Use.offers, hr, adopt_eq, spellings_adopt]

theorem spellings_uses (p : TextPool) (us : List Use) :
    (p.uses h us).spellings h = (p.spellings h).enter (us.flatMap Use.offers) := by
  induction us generalizing p with
  | nil => exact (Spellings.enter_nil _).symm
  | cons u us ih =>
    rw [uses, List.foldl_cons, ← uses, ih, (use_spec p u).2, ← Spellings.enter_append, List.flatMap_cons]

lemma adopt_known {p : TextPool} {t : Text} (ht : ((p.spellings h).handle t.val).isSome = true) :
    (p.adopt h t).2 = p := by
  obtain ⟨u, hu⟩ := Option.isSome_iff_exists.mp ht
  rw [adopt_old h hu]

lemma internAll_known {p : TextPool} {label : Nat} {ss : List String}
    (hs : ∀ s ∈ ss, ((p.spellings h).handle s).isSome = true) : p.internAll h label ss = p := by
  induction ss generalizing label with
  | nil => rfl
  | cons s ss ih =>
    simp only [List.mem_cons, forall_eq_or_imp] at hs
    rw [internAll, intern, adopt_known (t := ⟨label, s⟩) hs.1, ih hs.2]

theorem use_known {p : TextPool} {u : Use}
    (hu : ∀ t ∈ u.offers, ((p.spellings h).handle t.val).isSome = true) : (p.use h u).2 = p := by
  cases u with
  | get | isPooled | size => rfl
  | intern label s => exact adopt_known (t := ⟨label, s⟩) (hu _ List.mem_cons_self)
  | fetch label s =>
    simp only [use, fetch_eq]
    exact adopt_known (t := ⟨label, s⟩) (hu _ List.mem_cons_self)
  | adopt t => exact adopt_known (hu _ List.mem_cons_self)
  | internCommon label =>
    apply internAll_known
    intro s hs
    obtain ⟨n, hn⟩ := List.mem_iff_getElem?.mp hs
    have placed : (s, label + n) ∈ commonTexts.zipIdx label := List.mk_add_mem_zipIdx_iff_getElem?.mpr hn
    have offered : (⟨label + n, s⟩ : Text) ∈ (Use.internCommon label).offers := by
      simp only [Use.offers]
      exact List.mem_map_of_mem placed
    exact hu _ offered
  | file r =>
    cases hr : r.file with
    | none => simp [use, Session.poolFile, hr]
    | some f =>
      simp only [use, Session.poolFile, hr]
      exact adopt_known (hu f (by simp [Use.offers, hr]))

lemma Filed.use {p : TextPool} (hp : p.Filed h) (u : Use) : (p.use h u).2.Filed h := by
  cases u with
  | get | isPooled | size => exact hp
  | intern label s => exact hp.adopt ⟨label, s⟩
  | fetch label s =>
    simp only [TextPool.use, fetch_eq]
    exact hp.adopt ⟨label, s⟩
  | adopt t => exact hp.adopt t
  | internCommon label =>
    simp only [TextPool.use, internCommon]
    exact hp.internAll label commonTexts
  | file r =>
    cases hr : r.file with
    | none => simpa [TextPool.use, Session.poolFile, hr] using hp
    | some f =>
      simp only [TextPool.use, Session.poolFile, hr]
      exact hp.adopt f

lemma Filed.uses {p : TextPool} (hp : p.Filed h) (us : List Use) : (p.uses h us).Filed h := by
  induction us generalizing p with
  | nil => exact hp
  | cons u us ih => exact ih (hp.use u)

lemma Filed.mem_spellings {p : TextPool} (hp : p.Filed h) {s : String} :
    s ∈ p.texts.map Handle.val ↔ s ≠ "" ∧ ((p.spellings h).handle s).isSome = true := by
  rw [List.mem_map]
  constructor
  · rintro ⟨t, ht, rfl⟩
    obtain ⟨hn, found⟩ := hp.found t ht
    exact ⟨hn, Option.isSome_iff_exists.mpr ⟨t, found⟩⟩
  · rintro ⟨hn, hsome⟩
    obtain ⟨t, ht⟩ := Option.isSome_iff_exists.mp hsome
    exact ⟨t, mem_texts h hn ht, find?_val h ht⟩

lemma Filed.size {p : TextPool} (hp : p.Filed h) {ss : Finset String}
    (hs : ∀ s, s ∈ ss ↔ s ≠ "" ∧ ((p.spellings h).handle s).isSome = true) : p.size = 1 + ss.card := by
  have once : (p.texts.map Handle.val).Nodup := by
    refine hp.once.map_on fun t ht u hu he => ?_
    have found := (hp.found u hu).2
    rw [← he, (hp.found t ht).2, Option.some.injEq] at found
    exact found
  have same : ss = (p.texts.map Handle.val).toFinset := by
    ext s
    rw [hs, List.mem_toFinset, hp.mem_spellings]
  rw [same, List.toFinset_card_of_nodup once, List.length_map, size_eq]

theorem size_uses (us : List Use) : (TextPool.empty.uses h us).size =
    1 + (((us.flatMap Use.offers).map Handle.val).toFinset.erase "").card := by
  apply (filed_empty.uses us).size
  intro s
  rw [spellings_uses, spellings_empty, Spellings.isSome_handle]
  simp only [Finset.mem_erase, List.mem_toFinset, List.mem_map]
  exact and_congr_right fun hs => (or_iff_right hs).symm

inductive Follows (h : Hasher) : TextPool → List (Use × PoolOutcome) → Prop
  | nil (p : TextPool) : Follows h p []
  | cons {p : TextPool} {us : List (Use × PoolOutcome)} (u : Use) :
    Follows h (p.use h u).2 us → Follows h p ((u, (p.use h u).1) :: us)

lemma Follows.at {p : TextPool} {before rest : List (Use × PoolOutcome)} {u : Use} {o : PoolOutcome}
    (hf : Follows h p (before ++ (u, o) :: rest)) :
    o = ((p.spellings h).enter (before.flatMap fun e => e.1.offers)).answer u := by
  induction before generalizing p with
  | nil =>
    cases hf with
    | cons u _ => rw [List.flatMap_nil, Spellings.enter_nil, (use_spec p u).1]
  | cons e before ih =>
    cases hf with
    | cons v hf => rw [ih hf, (use_spec p v).2, ← Spellings.enter_append, List.flatMap_cons]

end TextPool

lemma Spellings.answer_result {m : Spellings} {u : TextPool.Use} {v : String} (hu : u.spelling? = some v) :
    (m.answer u).result = (m.enter u.offers).handle v := by
  cases u with
  | intern label s | fetch label s =>
    obtain rfl : s = v := Option.some.inj hu
    exact (m.enter_one ⟨label, s⟩).symm
  | adopt t =>
    obtain rfl : t.val = v := Option.some.inj hu
    exact (m.enter_one t).symm
  | get s =>
    obtain rfl : s = v := Option.some.inj hu
    exact congrArg (Spellings.handle · s) m.enter_nil.symm
  | _ => cases hu

end CodeModel
