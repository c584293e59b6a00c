import CodeModel.Proofs.Interning.Whole

namespace CodeModel

open Interning

inductive Finding where
  | reused
  | registered
  | listed
deriving DecidableEq

def Event.finding? : Event → Option (Nat × Finding)
  | reused n _ => some (n, .reused)
  | registered n _ => some (n, .registered)
  | listed n _ _ => some (n, .listed)
  | _ => none

def findings (es : List Event) (n : Nat) (f : Finding) : Nat := es.countP fun e => e.finding? = some (n, f)

lemma findings_append (es es' : List Event) (n : Nat) (f : Finding) :
    findings (es ++ es') n f = findings es n f + findings es' n f :=
  List.countP_append

lemma findings_eq_zero {es : List Event} {n : Nat} {f : Finding} (h : ∀ e ∈ es, e.finding? ≠ some (n, f)) :
    findings es n f = 0 := by
  rw [findings, List.countP_eq_zero]
  intro e he
  simpa using h e he

lemma findings_silent {es : List Event} (h : ∀ e ∈ es, e.finding? = none) (n : Nat) (f : Finding) :
    findings es n f = 0 :=
  findings_eq_zero fun e he => by simp [h e he]

structure Provider.Logs (p : Provider) (es : List Event) (q : Provider) : Prop where
  number : q.number = p.number
  own : ∀ e ∈ es, ∀ n f, e.finding? = some (n, f) → n = p.number
  entered : q.misses + (p.entityCount + p.listCount) = p.misses + (q.entityCount + q.listCount)
  registered : q.entityCount = p.entityCount + findings es p.number .registered
  lookups : q.hits + q.misses = p.hits + p.misses +
    (findings es p.number .reused + findings es p.number .registered + findings es p.number .listed)

namespace Provider.Logs

variable {p q r : Provider} {es es' : List Event}

lemma silent (h : ∀ e ∈ es, e.finding? = none) (hn : q.number = p.number) (he : q.entityCount = p.entityCount)
    (hl : q.listCount = p.listCount) (hh : q.hits = p.hits) (hm : q.misses = p.misses) : p.Logs es q := by
  have none (f : Finding) : findings es p.number f = 0 := findings_silent h _ f
  refine ⟨hn, fun e hes n f hf => ?_, by omega, by rw [none, he]; rfl, by rw [none, none, none]; omega⟩
  rw [h e hes] at hf
  cases hf

lemma trans (h : p.Logs es q) (h' : q.Logs es' r) : p.Logs (es ++ es') r := by
  obtain ⟨number, own, entered, registered, lookups⟩ := h'
  rw [h.number] at registered lookups
  have := h.entered
  have := h.registered
  have := h.lookups
  refine ⟨number.trans h.number, fun e he n f hf => ?_, by omega, ?_, ?_⟩
  · rcases List.mem_append.mp he with he | he
    · exact h.own e he n f hf
    · exact (own e he n f hf).trans h.number
  · rw [findings_append]
    omega
  · simp only [findings_append]
    omega

end Provider.Logs

def Work.Logs (w v : Work) : Prop := ∃ es, v.events = w.events ++ es ∧ w.provider.Logs es v.provider

variable {s : Setting} {w v u : Work} {k : Kind} {i : Item}

namespace Work.Logs

lemma same (hp : v.provider = w.provider) (he : v.events = w.events) : w.Logs v :=
  ⟨[], by simp [he], .silent (by simp) (by rw [hp]) (by rw [hp]) (by rw [hp]) (by rw [hp]) (by rw [hp])⟩

lemma refl (w : Work) : w.Logs w := same rfl rfl

lemma number (h : w.Logs v) : v.provider.number = w.provider.number := by
  obtain ⟨_, -, h⟩ := h
  exact h.number

lemma trans (h : w.Logs v) (h' : v.Logs u) : w.Logs u := by
  obtain ⟨es, he, h⟩ := h
  obtain ⟨es', he', h'⟩ := h'
  exact ⟨es ++ es', by rw [he', he, List.append_assoc], h.trans h'⟩

lemma emit {e : Event} (he : e.finding? = none) : w.Logs { w with events := w.events ++ [e] } :=
  ⟨[e], rfl, .silent (by simpa using he) rfl rfl rfl rfl rfl⟩

end Work.Logs

lemma poolText_logs (t : Text) : w.Logs ((poolText s t).run w).2 := by
  cases hf : w.failure with
  | some e =>
    rw [poolText, unlessFailed_run_failed (by simp [hf])]
    exact .refl w
  | none =>
    rw [poolText_run t hf]
    exact ⟨[], by simp, .silent (by simp) rfl rfl rfl rfl rfl⟩

lemma settle_logs (x : Handle k.Carrier) : w.Logs ((settle s k x).run w).2 := by
  cases hf : w.failure with
  | some e =>
    rw [settle_run_failed (by simp [hf])]
    exact .refl w
  | none =>
    cases hy : w.provider.find? s.hasher k x.val with
    | some y =>
      rw [settle_run_found hf hy]
      refine ⟨[.reused w.provider.number k], rfl, rfl, by simp [Event.finding?], rfl, ?_, ?_⟩ <;>
        simp [findings, Event.finding?, Provider.hit]
      omega
    | none =>
      rw [settle_run_new hf hy]
      refine ⟨[.registered w.provider.number k], rfl, rfl, by simp [Event.finding?], ?_, ?_, ?_⟩ <;>
        simp [findings, Event.finding?, Provider.miss, Provider.register] <;> omega

lemma sealList_logs (items : List (Handle k.Carrier)) : w.Logs ((sealList s k items).run w).2 := by
  cases hr : w.provider.findList? s.hasher k items with
  | some r =>
    rw [sealList_run_found hr]
    refine ⟨[.listed w.provider.number k items.length], rfl, rfl, by simp [Event.finding?], rfl, ?_, ?_⟩ <;>
      simp [findings, Event.finding?, Provider.hit]
    omega
  | none =>
    rw [sealList_run_new hr]
    refine ⟨[.listed w.provider.number k items.length], rfl, rfl, by simp [Event.finding?], ?_, ?_, ?_⟩ <;>
      simp [findings, Event.finding?, Provider.miss, Provider.recordList] <;> omega

theorem canonicalize_logs (held : Held) (x : Handle k.Carrier) (prepare : Held → Interning k.Carrier)
    (h : ∀ held' v, Work.Logs v ((prepare held').run v).2) :
    w.Logs ((canonicalize s k held x prepare).run w).2 := by
  cases hf : w.failure with
  | some e =>
    rw [canonicalize, unlessFailed_run_failed (by simp [hf])]
    exact .refl w
  | none =>
    by_cases hcanonical : w.provider.isCanonical s.hasher held k x = true
    · rw [canonicalize_run_canonical hf hcanonical]
      exact .refl w
    by_cases hfrozen : x.id ∈ s.frozen
    · rw [canonicalize_run_frozen hf hcanonical hfrozen]
      exact .same rfl rfl
    by_cases hshared : (held x.id || w.provider.holds x.id) = true
    · rw [canonicalize_run_shared hf hcanonical hfrozen hshared]
      have copying : w.Logs { w with events := w.events ++ [.copying w.provider.number k] } := .emit rfl
      generalize { w with events := w.events ++ [Event.copying w.provider.number k] } = v at copying ⊢
      have prepared := copying.trans (h .everything v)
      cases he : ((prepare .everything).run v).2.failure with
      | some e =>
        rw [copy_run_failed (by simp [he])]
        exact prepared
      | none =>
        rw [copy_run he]
        exact prepared.trans (settle_logs _)
    · rw [canonicalize_run_sole hf hcanonical hfrozen hshared, StateT.run_bind]
      exact (h held w).trans (settle_logs _)

theorem canonicalizeList_logs (l : EntityList k.Carrier) (elements : Interning (List (Handle k.Carrier)))
    (h : w.Logs (elements.run w).2) : w.Logs ((canonicalizeList s k l elements).run w).2 := by
  cases hf : w.failure with
  | some e =>
    rw [canonicalizeList, unlessFailed_run_failed (by simp [hf])]
    exact .refl w
  | none =>
    by_cases hdone : l.items = [] ∨ w.provider.isCanonicalList s.hasher k l = true
    · rw [canonicalizeList_run_done hf hdone]
      exact .refl w
    · rw [canonicalizeList_run_elements hf hdone, run_unlessFailed]
      split
      · exact h
      · exact h.trans (sealList_logs _)

section Traversal

def Logged (s : Setting) : Item → Prop
  | .entity k x => ∀ held w, Work.Logs w ((k.intern s held x).run w).2
  | .list k l => ∀ w, Work.Logs w ((k.internList s l).run w).2
  | _ => True

lemma logs_passes (outer : Held) (w : Work) : Passes s outer (Logged s) (fun _ _ => w.Logs) where
  nothing h := h
  text t _ h := h.trans (poolText_logs t)
  list hl v h := h.trans (hl v)
  entity hx _ v h := h.trans (hx _ v)

theorem logged (s : Setting) (i : Item) : Logged s i := by
  induction i using Item.induction with
  | step i ih =>
    cases i with
    | nothing | text | definition => trivial
    | list k l =>
      intro w
      have elements : ∀ x ∈ l.items, Logged s (.entity k x) := by simpa using ih
      exact canonicalizeList_logs l _ (sends_elements (logs_passes _ w) l.items elements w (.refl w))
    | entity k x =>
      intro held w
      apply canonicalize_logs
      intro held' v
      exact (prepare_sends (logs_passes _ v) k x.val ih v (.refl v)).1

end Traversal

lemma prepareInPlace_logs (held : Held) (x : Handle k.Carrier) : w.Logs ((k.prepareInPlace s held x).run w).2 := by
  by_cases hfrozen : x.id ∈ s.frozen
  · rw [prepareInPlace_run_frozen hfrozen]
    exact .same rfl rfl
  · rw [prepareInPlace_run hfrozen]
    exact (prepare_sends (logs_passes _ w) k x.val (fun i _ => logged s i) w (.refl w)).1

lemma internMembers_logs (d : Handle Definition) : w.Logs ((Definition.internMembers s d).run w).2 := by
  by_cases hfrozen : d.id ∈ s.frozen
  · rw [internMembers_run_frozen hfrozen]
    exact .same rfl rfl
  · exact (internMembers_sends (logs_passes _ w) d (fun i _ => logged s i) hfrozen
      (fun _ _ _ h => h.trans (.emit rfl)) w (.refl w)).1

theorem Item.intern_logs (i : Item) (held : Held) : w.Logs ((i.intern s held).run w).2 := by
  cases i with
  | nothing => exact .refl w
  | text t => exact poolText_logs t
  | entity k x => exact logged s (.entity k x) held w
  | list k l => exact logged s (.list k l) w
  | definition d => exact internMembers_logs d

section Own

def Nested (s : Setting) (w v : Work) : Item → Prop
  | .entity k x => ∃ held es, (∀ e ∈ es, e.finding? = none) ∧
    v = ((k.prepare s held x.val).run { w with events := w.events ++ es }).2
  | .list k l => v = ((l.items.mapM (k.intern s .everything)).run w).2
  | .definition d => v = ((d.val.internParts s).run w).2
  | _ => False

def Item.Done (s : Setting) (held : Held) (w : Work) : Item → Prop
  | .nothing => True
  | .entity k x => w.provider.isCanonical s.hasher held k x = true
  | .list k l => l.items = [] ∨ w.provider.isCanonicalList s.hasher k l = true
  | _ => False

lemma Item.intern_done {held : Held} (hf : w.failure = none) (hi : i.Done s held w) :
    (i.intern s held).run w = (i, w) := by
  cases i with
  | nothing => rfl
  | entity k x =>
    have done : (k.intern s held x).run w = (x, w) := canonicalize_run_canonical hf hi
    rw [Item.intern, StateT.run_map, done]
    rfl
  | list k l =>
    have done : (k.internList s l).run w = (l, w) := canonicalizeList_run_done hf hi
    rw [Item.intern, StateT.run_map, done]
    rfl
  | _ => exact hi.elim

theorem Item.intern_own (i : Item) (held : Held) (hf : w.failure = none)
    (he : ((i.intern s held).run w).2.failure ≠ none) :
    ((i.intern s held).run w).2 = { w with failure := ((i.intern s held).run w).2.failure } ∨
      Nested s w ((i.intern s held).run w).2 i := by
  cases i with
  | nothing => exact absurd hf he
  | text t =>
    have pooled : ((poolText s t).run w).2.failure = none := by
      rw [poolText_run t hf]
      exact hf
    exact absurd pooled he
  | entity k x =>
    have result : (((Item.entity k x).intern s held).run w).2 = ((k.intern s held x).run w).2 := rfl
    rw [result] at he ⊢
    rcases Kind.intern_run_failed hf he with h | ⟨y, held', es, -, hes, h⟩
    · rw [h]
      exact .inl rfl
    · refine .inr ⟨held', es, ?_, by rw [h]⟩
      rcases hes with rfl | rfl <;> simp [Event.finding?]
  | list k l => exact .inr (congrArg Prod.snd (Kind.internList_run_failed hf he))
  | definition d =>
    have result : (((Item.definition d).intern s held).run w).2 = ((Definition.internMembers s d).run w).2 := rfl
    rw [result] at he ⊢
    rcases Definition.internMembers_run_failed he with h | h
    · rw [h]
      exact .inl rfl
    · exact .inr h

end Own

end CodeModel
