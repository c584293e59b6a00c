import CodeModel.Proofs.Session.Pooling

/-! Every session of a history is good, and all it goes on to keeps what is frozen. -/

namespace CodeModel

def Store.initial : Store where
  object id := (SharedType.all.find? (·.handle.id == id)).map fun t => .entity .typeRef t.handle
  list id := if id < 3 then some (.typeRef, false, []) else none
  text id := if id = 0 then some "" else none

def Hasher.colliding : Hasher := ⟨fun _ => 0, fun _ => ⟨0, Nat.succ_pos 63⟩⟩

def Step.asks : Step → Bool
  | same .. | equals .. | isFrozen .. | display .. | inspect .. | findMethods .. | walk .. | sharedTypes .. | stats ..
  | canonical .. | dump .. => true
  | _ => false

namespace Session

variable {σ τ : Store} {s t : Session}

def after (s : Session) (steps : List Step) : Session := steps.foldl (fun s st => (step s st).2.2) s

lemma after_append (s : Session) (steps more : List Step) : s.after (steps ++ more) = (s.after steps).after more :=
  List.foldl_append

/-- What is alive in a session: what its registers, providers and pools hold, and the shared types. -/
inductive Holds (s : Session) : Item → Prop
  | register {b : String × Item} {i : Item} : b ∈ s.registers → Item.Within i b.2 → Holds s i
  | provider {b : String × Provider} {i j : Item} :
      b ∈ s.providers → b.2.Root s.hasher j → Item.Within i j → Holds s i
  | pool {b : String × TextPool} {v : String} {t : Text} :
      b ∈ s.pools → b.2.find? s.hasher v = some t → Holds s (.text t)
  | shared (t : SharedType) : Holds s (.entity .typeRef t.handle)

lemma Holds.mono {i : Item} (h : s.Holds i) (hasher : t.hasher = s.hasher)
    (registers : ∀ b ∈ s.registers, b ∈ t.registers) (providers : ∀ b ∈ s.providers, b ∈ t.providers)
    (pools : ∀ b ∈ s.pools, b ∈ t.pools) : t.Holds i := by
  cases h with
  | register hb hi => exact .register (registers _ hb) hi
  | provider hb hr hi => exact .provider (providers _ hb) (hasher ▸ hr) hi
  | pool hb ht => exact .pool (pools _ hb) (hasher ▸ ht)
  | shared t => exact .shared t

lemma Good.fits_of_holds (hg : s.Good σ) {i : Item} (h : s.Holds i) : σ.Fits i := by
  cases h with
  | register hb hi => exact (hg.registers _ hb).within hi
  | provider hb hr hi => exact (hg.providers _ hb _ hr).within hi
  | pool hb ht => exact hg.pools _ hb _ _ ht
  | shared t => exact hg.shared t

lemma holds_of_register? {r : String} {i : Item} (h : s.register? r = some i) : s.Holds i :=
  .register (mem_of_lookup h) (.refl i)

section Reading

lemma isFrozen_reads (r : String) : Reads (run (.isFrozen r)) := by
  apply (reads_register r).bind
  intro i
  cases i with
  | entity | definition => exact reads_get.bind fun _ => reads_pure _
  | _ => exact reads_failure

lemma equals_reads (a b : String) : Reads (run (.equals a b)) := by
  apply reads_get.bind
  intro s
  apply (reads_register a).bind
  intro i
  apply (reads_register b).bind
  intro j
  cases i with
  | entity k x =>
    cases j with
    | entity l y =>
      by_cases h : l = k
      · simpa [h] using reads_pure _
      · simpa [h] using reads_failure
    | _ => exact reads_failure
  | _ => exact reads_failure

lemma findMethods_reads (r name : String) : Reads (run (.findMethods r name)) := by
  apply (reads_register r).bind
  intro i
  cases i with
  | definition => exact reads_pure _
  | _ => exact reads_failure

lemma walk_reads (r : String) : Reads (run (.walk r)) := by
  apply reads_get.bind
  intro s
  apply (reads_register r).bind
  intro i
  cases i with
  | list => exact reads_pure _
  | _ => exact reads_failure

lemma canonical_reads (p r : String) : Reads (run (.canonical p r)) := by
  apply reads_get.bind
  intro s
  apply (reads_provider p).bind
  intro q
  apply (reads_register r).bind
  intro i
  cases i with
  | entity | list => exact reads_pure _
  | _ => exact reads_failure

theorem run_reads (st : Step) (h : st.asks = true) : Reads (run st) := by
  cases st with
  | same a b =>
    exact (reads_register a).bind fun i => (reads_register b).bind fun j => (reads_ofOption _).bind fun _ =>
      reads_pure _
  | equals a b => exact equals_reads a b
  | isFrozen r => exact isFrozen_reads r
  | display r => exact (reads_register r).bind fun i => (reads_ofOption _).bind fun _ => reads_pure _
  | inspect r =>
    exact reads_get.bind fun s => (reads_register r).bind fun i => (reads_ofOption _).bind fun _ => reads_pure _
  | findMethods r name => exact findMethods_reads r name
  | walk r => exact walk_reads r
  | sharedTypes p => exact reads_get.bind fun s => (reads_provider p).bind fun q => reads_pure _
  | stats p => exact (reads_provider p).bind fun q => reads_pure _
  | canonical p r => exact canonical_reads p r
  | dump p => exact reads_get.bind fun s => reads_pure _
  | _ => simp [Step.asks] at h

end Reading

theorem run_moves (st : Step) : Moves (run st) := by
  cases hst : st.asks with
  | true => exact (run_reads st hst).moves
  | false =>
    cases st with
    | bind target value => exact bind_moves target value
    | drop rs => exact drop_moves rs
    | dropProvider p => exact dropProvider_moves p
    | newPool target => exact newPool_moves target
    | newProvider target options => exact newProvider_moves target options
    | set r c => exact change_moves r c _
    | edit r c => exact edit_moves r c
    | get r path target => exact get_moves r path target
    | copyUnfrozen r target => exact copyUnfrozen_moves r target
    | freeze r => exact freeze_moves r
    | intern p r => exact intern_moves p r
    | internOptional p r => exact internOptional_moves p r
    | internObject p source target => exact internObject_moves p source target
    | prepare p r => exact prepare_moves p r
    | internString p v target => exact internString_moves p v target
    | pool name action target => exact pool_moves name action target
    | _ => simp [Step.asks] at hst

theorem step_reaches (hg : s.Good σ) (st : Step) : Reaches σ s (step s st).2.2 := by
  cases hrun : (run st).run { s with events := [] } with
  | none =>
    simp only [step, hrun]
    exact reaches_refl hg
  | some r =>
    obtain ⟨a, t⟩ := r
    obtain ⟨τ, good, later⟩ := run_moves st σ _ (hg.withEvents []) _ rfl a t hrun
    simp only [step, hrun]
    exact ⟨τ, good, { later with }⟩

theorem after_reaches (hg : s.Good σ) (steps : List Step) : Reaches σ s (s.after steps) := by
  induction steps generalizing s σ with
  | nil => exact reaches_refl hg
  | cons st steps ih => exact (step_reaches hg st).trans fun τ hg => ih hg

lemma initial_object {id : Nat} {i : Item} (h : Store.initial.object id = some i) :
    ∃ t : SharedType, t.handle.id = id ∧ i = .entity .typeRef t.handle := by
  obtain ⟨t, ht, rfl⟩ := Option.map_eq_some_iff.mp h
  exact ⟨t, by simpa using List.find?_some ht, rfl⟩

lemma initial_good (hasher : Hasher) : (initial hasher).Good .initial where
  registers := by simp [initial]
  providers := by simp [initial]
  pools := by simp [initial]
  shared t := Store.fits_iff.mpr ⟨by cases t <;> rfl, by simp⟩
  empty := Store.fits_text.mpr rfl
  sound := by simp [initial]
  object id i hi := by
    obtain ⟨t, rfl, -⟩ := initial_object hi
    cases t <;> simp [initial, SharedType.handle]
  list id a ha := (Option.ite_none_right_eq_some.mp ha).1
  text id v hv := by
    have : id = 0 := by simpa [Store.initial] using (Option.ite_none_right_eq_some.mp hv).1
    simp [initial, this]
  boundOnce := by simp [initial, BoundOnce]
  namedOnce := by simp [initial, BoundOnce]
  numbered := by simp [initial]
  numberedOnce := by simp [initial]
  ownedOnce := by simp [initial]
  frozen id hid := by
    obtain ⟨t, rfl⟩ := SharedType.mem_marks.mp hid
    cases t <;> simp [initial, SharedType.handle]
  closed id hid i hi _ l hl := by
    obtain ⟨t, rfl, rfl⟩ := initial_object hi
    exact SharedType.mem_marks.mpr ⟨t, Item.labels_shared.mp hl⟩

theorem start_later (hasher : Hasher) (options : Options) (steps : List Step) :
    ∃ σ, ((start hasher options).after steps).Good σ ∧
      Later .initial (initial hasher) σ ((start hasher options).after steps) := by
  obtain ⟨τ, good, later⟩ := addProvider_reaches (initial_good hasher) "P" options
  obtain ⟨υ, good, later'⟩ := after_reaches good steps
  exact ⟨υ, good, later.trans later'⟩

theorem start_good (hasher : Hasher) (options : Options) (steps : List Step) :
    ∃ σ, ((start hasher options).after steps).Good σ ∧ ((start hasher options).after steps).hasher = hasher := by
  obtain ⟨σ, good, later⟩ := start_later hasher options steps
  exact ⟨σ, good, later.hasher⟩

end Session

end CodeModel
