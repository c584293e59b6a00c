import CodeModel.Proofs.Interning.Relisting
import CodeModel.Proofs.Session.Calls
import CodeModel.Proofs.Session.Edits
import CodeModel.Proofs.Session.Stability

namespace CodeModel

def EntityList.sequence {α : Type} (l : EntityList α) : List Nat := l.items.map Handle.id

lemma EntityList.sequence_eq_nil {α : Type} {l : EntityList α} : l.sequence = [] ↔ l.items = [] :=
  List.map_eq_nil_iff

def Item.list? (k : Kind) : Item → Option (EntityList k.Carrier)
  | list j l => if h : j = k then some (h ▸ l) else none
  | _ => none

lemma Item.list?_eq_some {k : Kind} {i : Item} {l : EntityList k.Carrier} (h : i.list? k = some l) : i = .list k l := by
  cases i with
  | list j m =>
    obtain ⟨rfl, hm⟩ := Option.dite_none_right_eq_some.mp h
    exact congrArg (list j) (Option.some.inj hm)
  | _ => cases h

namespace Session

open Builder

variable {σ τ : Store} {s t u : Session} {p r : String} {q : Provider} {st : Step} {k : Kind}
  {l m l' m' : EntityList k.Carrier} {e e' : Option ModelError}

section Storage

/-- What storage tells of the lists that are alive: which of them are empty, and that two of them are the same
sequence. Of two lists that are canonical in one provider it tells whether they are. -/
structure ListsAgree (s : Session) : Prop where
  empty : ∀ k l, s.Holds (.list k l) → (l.identity.getD 0 = 0 ↔ l.sequence = [])
  same : ∀ k l m, s.Holds (.list k l) → s.Holds (.list k m) → l.sameStorage m = true → m.sequence = l.sequence
  canonical : ∀ b ∈ s.providers, ∀ k l m, s.Holds (.list k l) → s.Holds (.list k m) →
    b.2.isCanonicalList s.hasher k l = true → b.2.isCanonicalList s.hasher k m = true →
    (l.sameStorage m = true ↔ m.sequence = l.sequence)

lemma identity_eq_zero (hs : Store.initial.Extends σ) (hl : σ.Fits (.list k l)) :
    l.identity.getD 0 = 0 ↔ l.sequence = [] := by
  rw [EntityList.sequence_eq_nil]
  by_cases hn : l.items = []
  · simp [EntityList.identity, hn]
  · have nonzero : l.storage ≠ 0 := by
      intro h0
      have known := hl.knows hn
      rw [h0, hs.list 0 _ rfl] at known
      simp [hn] at known
    simp [EntityList.identity, hn, nonzero]

lemma sequence_of_sameStorage (hl : σ.Fits (.list k l)) (hm : σ.Fits (.list k m)) (h : l.sameStorage m = true) :
    m.sequence = l.sequence := by
  rcases EntityList.sameStorage_cases h with ⟨hl', hm'⟩ | ⟨hl', hm', hs⟩
  · rw [EntityList.sequence_eq_nil.mpr hl', EntityList.sequence_eq_nil.mpr hm']
  · rw [Store.list_eq hl hm hl' hm' hs]

lemma sameStorage_of_sequence {h : Hasher} (hq : q.Sound h) (hl : q.Canonical h (.list k l))
    (hm : q.Canonical h (.list k m)) (hs : m.sequence = l.sequence) : l.sameStorage m = true := by
  have refl (n : EntityList k.Carrier) : n.sameStorage n = true := by simp [EntityList.sameStorage]
  rcases hl with hl | ⟨a, ha, rfl⟩
  · have hm' : m.items = [] := EntityList.sequence_eq_nil.mp (hs.trans (EntityList.sequence_eq_nil.mpr hl))
    simp [EntityList.sameStorage, EntityList.identity, EntityList.length, hl, hm']
  · rcases hm with hm | ⟨b, hb, rfl⟩
    · have ha' : a.items = [] := EntityList.sequence_eq_nil.mp (hs.symm.trans (EntityList.sequence_eq_nil.mpr hm))
      exact absurd ha' (hq.recordFull k a ha)
    · rw [hq.record_eq hb ha hs]
      exact refl _

theorem Good.listsAgree (hg : s.Good σ) (hs : Store.initial.Extends σ) : ListsAgree s where
  empty _ _ hl := identity_eq_zero hs (hg.fits_of_holds hl)
  same _ _ _ hl hm h := sequence_of_sameStorage (hg.fits_of_holds hl) (hg.fits_of_holds hm) h
  canonical b hb k l m hl hm hcl hcm := by
    have fitsL := hg.fits_of_holds hl
    have fitsM := hg.fits_of_holds hm
    have sound := hg.sound b hb
    have fits := hg.providers b hb
    exact ⟨sequence_of_sameStorage fitsL fitsM, sameStorage_of_sequence sound
      (Provider.canonical_of_isCanonicalList sound fits fitsL hcl)
      (Provider.canonical_of_isCanonicalList sound fits fitsM hcm)⟩

end Storage

section Making

structure ListsMade (s : Session) : Prop where
  built : ∀ target k rs xs u, (rs.mapM (Kind.build k)).run { s with events := [] } = some (xs, u) →
    s.nextObject ≤ u.nextObject ∧
      (step s (.bind target (.list k rs))).2.2.register? target = some (.list k ⟨false, u.nextObject, xs⟩)
  bound : ∀ target r k l, s.register? r = some (.list k l) →
    ∃ m, l.Duplicates s.nextObject m ∧
      (step s (.bind target (.register r))).2.2.register? target = some (.list k m)
  taken : ∀ target r path i k l, s.register? r = some i → i.follow? path = some (.list k l) →
    ∃ m, l.Duplicates s.nextObject m ∧ (step s (.get r path target)).2.2.register? target = some (.list k m)
  copied : ∀ target r k x, s.register? r = some (.entity k x) →
    ∃ y, List.Forall₂ (Item.Duplicates s.nextObject) (Item.entity k x).lists (Item.entity k y).lists ∧
      (step s (.copyUnfrozen r target)).2.2.register? target = some (.entity k y)

lemma register_of_put {i : Item} {a : Answer} (h : (run st).run { s with events := [] } = some (a, u.put r i)) :
    (step s st).2.2.register? r = some i := by
  obtain ⟨-, ht⟩ := step_of_run h
  rw [ht]
  exact lookup_assign_self

lemma copyUnfrozen_run {k : Kind} {x : Handle k.Carrier} {r : String} (hr : s.register? r = some (.entity k x))
    (target : String) : (run (.copyUnfrozen r target)).run { s with events := [] } = some (.ok,
      { s with events := [], nextObject := s.nextObject + 2 + 1 }.put target
        (.entity k ⟨s.nextObject + 2, k.copy s.nextObject x.val⟩)) := by
  simp [run, register_run_cleared hr, place, label, objectLabels, assignItem]

theorem Good.listsMade (hg : s.Good σ) : ListsMade s where
  built target k rs xs u h := by
    have start : Hand σ { s with events := [] } [] [] { s with events := [] } := hand_start (hg.withEvents [])
    obtain ⟨τ, -, made, -⟩ := mapM_makes (fun x => [.entity k x]) rs (fun a _ _ => k.build_makes a) _ start xs u h
    have ends : (run (.bind target (.list k rs))).run { s with events := [] } = some (.ok,
        { u with nextObject := u.nextObject + 1 }.put target (.list k ⟨false, u.nextObject, xs⟩)) := by
      simp [run, ItemRecipe.build, h, Builder.list, label, objectLabels, assignItem]
    exact ⟨made.nextObject, register_of_put ends⟩
  bound target r k l hr := by
    have found : ({ s with events := [] } : Session).register? r = some (.list k l) := hr
    have ends : (run (.bind target (.register r))).run { s with events := [] } = some (.ok,
        { s with events := [], nextObject := s.nextObject + 1 }.put target (.list k (l.copy s.nextObject))) := by
      simp [run, ItemRecipe.build, register_run found, Item.share, label, objectLabels, assignItem]
    exact ⟨_, l.duplicates_copy le_rfl, register_of_put ends⟩
  taken target r path i k l hr hl := by
    have found : ({ s with events := [] } : Session).register? r = some i := hr
    have ends : (run (.get r path target)).run { s with events := [] } = some (.found true,
        { s with events := [], nextObject := s.nextObject + 1 }.put target (.list k (l.copy s.nextObject))) := by
      simp [run, register_run found, hl, Item.share, label, objectLabels, assignItem]
    exact ⟨_, l.duplicates_copy le_rfl, register_of_put ends⟩
  copied target r k x hr := ⟨_, k.copy_duplicates x _ _, register_of_put (copyUnfrozen_run hr target)⟩

end Making

section Editing

structure ListsEdited (s : Session) : Prop where
  performed : ∀ st r c answer i e? storage j, Edits r c st answer → s.register? r = some i →
    ChangeRecipe.Turns c { s with events := [] } i e? storage j →
    Refused { s with events := [] } r (step s st).2.2 (step s st).1 ∨
      (step s st).1 = answer j ∧ (step s st).2.2.register? r = some j
  changes : ∀ st r c answer, Edits r c st answer →
    Changes { s with events := [] } r c answer (step s st).1 (step s st).2.2 ∨
      (step s st).1 = .invalid ∧ (step s st).2.2 = s
  relists : ∀ c i e? storage j, ChangeRecipe.Turns c { s with events := [] } i e? storage j →
    Relists storage e? i.lists j.lists
  unedited : ∀ c i e storage j, ChangeRecipe.Turns c { s with events := [] } i (some e) storage j → e.edits = [] →
    j.lists.map Item.parts = i.lists.map Item.parts

theorem Good.listsEdited (hg : s.Good σ) : ListsEdited s where
  performed _ _ _ _ _ _ _ _ h hi hj := step_turns hg h hi hj
  changes _ _ _ _ h := step_changes hg h
  relists _ _ _ _ _ h := h.relists
  unedited _ _ _ _ _ h he := h.relists.unedited he

end Editing

section Interning

structure ListsInterned (s : Session) (p : String) (q : Provider) : Prop where
  interned : ∀ r k l, s.register? r = some (.list k l) → ∃ e m, Returns s (.intern p r) r e (.list k l) (.list k m)
  elements : ∀ r k l e m, Returns s (.intern p r) r e (.list k l) (.list k m) →
    List.Forall₂ Item.Means (Item.list k l).parts (Item.list k m).parts
  failed : ∀ r k l e m, Returns s (.intern p r) r (some e) (.list k l) (.list k m) → m = l
  recorded : ∀ r k l m, Returns s (.intern p r) r none (.list k l) (.list k m) →
    m.sequence = [] ∨ ∃ q', (step s (.intern p r)).2.2.providers.lookup p = some q' ∧ ∃ a ∈ q'.lists k, m = a.list
  again : ∀ r k l e m, Returns s (.intern p r) r e (.list k l) (.list k m) → ∀ a ∈ q.lists k,
    l.sequence = a.list.sequence → e = none ∧ m = a.list
  alike : ∀ r r' k l l' e e' m m', Returns s (.intern p r) r e (.list k l) (.list k m) →
    Returns s (.intern p r') r' e' (.list k l') (.list k m') → l'.sequence = l.sequence →
    e' = e ∧ m'.sequence = m.sequence ∧ (e = none → l.sequence ≠ [] → m' = m)
  placed : ∀ st k l m, k.isModel = true → Interned s st q.number (.list k l) (.list k m) →
    (Item.list k m).bare = (Item.list k l).bare ∧ ∀ a ∈ q.lists k, l.sequence = a.list.sequence → m = a.list

def listWork (s : Session) (q : Provider) (k : Kind) (l : EntityList k.Carrier) : EntityList k.Carrier × Work :=
  (k.internList s.setting l).run (s.work q)

lemma intern_list_run (hq : s.providers.lookup p = some q) (hr : s.register? r = some (.list k l)) :
    (run (.intern p r)).run s = some (.interned (listWork s q k l).2.failure
      (some ((listWork s q k l).1.identity != l.identity)) (some (listWork s q k l).1.sealed)
      (listWork s q k l).2.provider.stats, (s.settled p (listWork s q k l).2).put r (.list k (listWork s q k l).1)) := by
  simp [run, intern, register_run hr, interning_run hq, statsOf_put, assignItem, listWork]

lemma Returns.list_eq (hq : s.providers.lookup p = some q)
    (h : Returns s (.intern p r) r e (.list k l) (.list k m)) :
    e = (listWork { s with events := [] } q k l).2.failure ∧ m = (listWork { s with events := [] } q k l).1 ∧
      (step s (.intern p r)).2.2.providers.lookup p =
        some (listWork { s with events := [] } q k l).2.provider := by
  have ends := intern_list_run (s := { s with events := [] }) hq h.before
  obtain ⟨ha, ht⟩ := step_of_run ends
  obtain ⟨_, _, _, hanswer⟩ := h.answer
  have result := (register_of_put ends).symm.trans h.after'
  rw [ha] at hanswer
  refine ⟨(Answer.interned.inj hanswer).1.symm, by simpa using result.symm, ?_⟩
  rw [ht]
  exact lookup_assign_self

lemma Hands.fits {n : Nat} {i j : Item} (hg : s.Good σ) (h : Hands s st n e i j) :
    ∃ (τ : Store) (u : Session), u.Good τ ∧ τ.Fits i ∧ u.providers = s.providers := by
  cases h with
  | intern _ _ hr | internOptional _ _ hr => exact ⟨σ, s, hg, hg.fits_register hr.before, rfl⟩
  | internMembers _ hr hi | prepare _ hr hi =>
    exact ⟨σ, s, hg, (hg.fits_register hr.before).part (List.mem_of_getElem? hi), rfl⟩
  | internObject _ hu =>
    obtain ⟨τ, taken⟩ := take_makes (hg.withEvents []) _ _ rfl _ _ hu
    exact ⟨τ, _, taken.good, taken.fits, taken.providers⟩

lemma Interned.items_eq (hg : s.Good σ) (hq : s.providers.lookup p = some q) {n : Nat}
    (h : Interned s st n (.list k l) (.list k m)) {a : Record k.Carrier} (ha : a ∈ q.lists k)
    (ids : l.sequence = a.list.sequence) : l.items = a.items := by
  obtain ⟨e, i, j, hands, along, -⟩ := h
  obtain ⟨τ, u, good, fits, providers⟩ := hands.fits hg
  have recorded : τ.Fits (.list k a.list) := good.providers _ (providers ▸ mem_of_lookup hq) _ (.record ha)
  exact Store.items_eq (fun _ => (fits.within along.within_left).element) (fun _ => recorded.element) ids

theorem Good.listsInterned (hg : s.Good σ) (hq : s.providers.lookup p = some q) : ListsInterned s p q where
  interned r k l hr := by
    have ends := intern_list_run (s := { s with events := [] }) hq hr
    exact ⟨_, _, hr, ⟨_, _, _, (step_of_run ends).1⟩, register_of_put ends⟩
  elements r k l e m h := by
    obtain ⟨-, rfl, -⟩ := h.list_eq hq
    exact internList_elements ((hg.withEvents []).work hq) (hg.fits_register h.before)
  failed r k l e m h := by
    obtain ⟨he, rfl, -⟩ := h.list_eq hq
    exact congrArg Prod.fst (Kind.internList_run_failed rfl (by rw [← listWork, ← he]; simp))
  recorded r k l m h := by
    obtain ⟨he, rfl, hq'⟩ := h.list_eq hq
    have bound : ({ s with events := [] } : Session).providers.lookup p = some q := hq
    obtain ⟨τ, -, -, hc⟩ := (hg.withEvents []).intern_becomes bound h.before
    rcases (hc he.symm).1 (by simp) with hn | ⟨a, ha, hm⟩
    · exact .inl (EntityList.sequence_eq_nil.mpr hn)
    · exact .inr ⟨_, hq', a, ha, hm.symm⟩
  again r k l e m h a ha ids := by
    obtain ⟨rfl, rfl, -⟩ := h.list_eq hq
    exact (internList_recorded ((hg.withEvents []).work hq) (hg.fits_register h.before) rfl ha ids).symm
  alike r r' k l l' e e' m m' h h' ids := by
    obtain ⟨rfl, rfl, -⟩ := h.list_eq hq
    obtain ⟨rfl, rfl, -⟩ := h'.list_eq hq
    have fits := hg.fits_register h.before
    have fits' := hg.fits_register h'.before
    have items : l'.items = l.items := Store.items_eq (fun _ => fits'.element) (fun _ => fits.element) ids
    have good : (({ s with events := [] } : Session).work q).Good s.setting.hasher σ := (hg.withEvents []).work hq
    obtain ⟨same, failure, lists⟩ := internList_congr good fits fits' items
    exact ⟨failure, congrArg (List.map Handle.id) same, fun he hn =>
      lists (fun hl => hn (EntityList.sequence_eq_nil.mpr hl)) he⟩
  placed st k l m hk h := by
    obtain ⟨τ, good, later, value, b, hb, number, canonical⟩ := h.canonical hg ((Item.isModel_list k l).mpr hk) (by simp)
    refine ⟨value, fun a ha ids => ?_⟩
    have items := h.items_eq hg hq ha ids
    have kept : a ∈ b.2.lists k := (later.grows hg (mem_of_lookup hq) hb number).record k a ha
    have sound := later.hasher ▸ good.sound b hb
    have same : (Item.list k a.list).bare = (Item.list k m).bare := by
      rw [value]
      simp [EntityList.bare, items, Record.list]
    cases sound.matches_of_bare (i := .list k a.list) (j := .list k m) hk (.inr ⟨a, kept, rfl⟩) canonical same with
    | refl => rfl
    | empty hn => exact absurd hn (sound.recordFull k a kept)

end Interning

section Keeping

structure ListsKept (s : Session) (more : List Step) : Prop where
  untouched : ∀ r, (∀ st ∈ more, r ∉ st.targets) → (s.after more).register? r = s.register? r
  sealed : ∀ k l m, s.Holds (.list k l) → (s.after more).Holds (.list k m) → l.sealed = true → l.sequence ≠ [] →
    m.sequence ≠ [] → m.storage = l.storage → m.sealed = true ∧ m.sequence = l.sequence
  recorded : ∀ p q, s.providers.lookup p = some q → (∀ st ∈ more, ¬ st.Ends p) →
    ∃ q', (s.after more).providers.lookup p = some q' ∧ ∀ k, ∀ a ∈ q.lists k, a ∈ q'.lists k

lemma after_register_other {more : List Step} (hg : s.Good σ) (h : ∀ st ∈ more, r ∉ st.targets) :
    (s.after more).register? r = s.register? r := by
  induction more generalizing s σ with
  | nil => rfl
  | cons st more ih =>
    simp only [List.mem_cons, forall_eq_or_imp] at h
    obtain ⟨τ, good, -⟩ := step_reaches hg st
    exact (ih good h.2).trans (step_register_other hg h.1)

theorem Good.listsKept (hg : s.Good σ) (more : List Step) : ListsKept s more where
  untouched _ h := after_register_other hg h
  sealed k l m hl hm hs hn hn' hst := by
    obtain ⟨τ, good, later⟩ := after_reaches hg more
    rw [Ne, EntityList.sequence_eq_nil] at hn hn'
    have known := later.extends'.list _ _ ((hg.fits_of_holds hl).knows hn)
    rw [← hst, (good.fits_of_holds hm).knows hn', Option.some.injEq, Prod.mk.injEq, Prod.mk.injEq] at known
    exact ⟨known.2.1.trans hs, known.2.2⟩
  recorded p q hq he := by
    obtain ⟨q', hq', grows⟩ := after_lookup hg he hq
    exact ⟨q', hq', grows.record⟩

end Keeping

/-- Lists have value semantics, whatever storage they share. -/
theorem lists_are_values (hasher : Hasher) (options : Options) (steps : List Step) :
    let s := (start hasher options).after steps
    ListsAgree s ∧ ListsMade s ∧ ListsEdited s ∧
      (∀ p q, s.providers.lookup p = some q → ListsInterned s p q) ∧ ∀ more, ListsKept s more := by
  obtain ⟨σ, good, later⟩ := start_later hasher options steps
  exact ⟨good.listsAgree later.extends', good.listsMade, good.listsEdited, fun p q => good.listsInterned,
    good.listsKept⟩

theorem lists_are_values_unsealed :
    let region : RegionRecipe := ⟨none, ⟨0, 0⟩, ⟨0, 0⟩⟩
    let parameter : ParameterRecipe := .make none (.shared .dynamic) [] none region []
    let steps := [.bind "m" (.entity .method (.make .empty (.shared .dynamic) [parameter] [] [] .unstated .none region)),
      .intern "P" "m", .copyUnfrozen "m" "c", .edit "c" (.parameters []), .get "c" [.parameters] "u"]
    let s := (start .colliding ⟨false, 0⟩).after steps
    ∃ (l : EntityList Parameter) (a : Record Parameter),
      Returns s (.intern "P" "u") "u" none (.list .parameter l) (.list .parameter a.list) ∧
      l.sealed = false ∧ l.storage ≠ a.storage := by
  intro region parameter steps s
  have held : ((s.register? "u").bind (Item.list? .parameter)).any (fun l =>
      !l.sealed && l.storage == 14 && l.sequence == [8]) = true := by decide +kernel
  have recorded : (s.providers.lookup "P").any (fun q => (q.lists .parameter).any fun a =>
      a.storage == 9 && a.list.sequence == [8]) = true := by decide +kernel
  obtain ⟨l, hi, hl⟩ := (Option.any_eq_true ..).mp held
  obtain ⟨i, hi, hil⟩ := Option.bind_eq_some_iff.mp hi
  obtain rfl := Item.list?_eq_some hil
  obtain ⟨q, hq, hq'⟩ := (Option.any_eq_true ..).mp recorded
  obtain ⟨a, ha, hs⟩ := List.any_eq_true.mp hq'
  simp only [Bool.and_eq_true, Bool.not_eq_true', beq_iff_eq] at hl hs
  obtain ⟨-, -, -, interns, -⟩ := lists_are_values .colliding ⟨false, 0⟩ steps
  have lists := interns "P" q hq
  obtain ⟨e, m, returns⟩ := lists.interned "u" .parameter l hi
  obtain ⟨rfl, rfl⟩ := lists.again "u" .parameter l e m returns a ha (hl.2.trans hs.2.symm)
  exact ⟨l, a, returns, hl.1.1, by simp [hl.1.2, hs.1]⟩

end Session

end CodeModel
