import CodeModel.Proofs.Interning.Entering
import CodeModel.Proofs.Session.Filing
import CodeModel.Proofs.Session.Lists
import CodeModel.Proofs.Session.Stability
import CodeModel.Proofs.Session.Yield

namespace CodeModel.Session

variable {σ τ : Store} {s t u : Session} {p r : String} {q q' : Provider} {st : Step} {n : Nat} {i j : Item} {v : Work}
  {k : Kind} {x y : Handle k.Carrier}

structure Tabled (s : Session) (q : Provider) : Prop where
  run : (Kind.protocol s.hasher).Run (Kind.protocol s.hasher).empty q.entities
  serves : (Kind.protocol s.hasher).Serves q.entities
  count_le : ∀ k v, q.canonicalCount s.hasher k v ≤ 1
  count_iff : ∀ k v, q.canonicalCount s.hasher k v = 1 ↔
    ∃ e ∈ q.entities k, (Kind.protocol s.hasher).Agree e.entity.val v
  current : ∀ k, ∀ e ∈ q.entities k, e.hash = k.fingerprint s.hasher e.entity.val ∧
    ∀ i, s.Holds i → i.label? = some e.entity.id → i = .entity k e.entity

theorem Good.tabled (hg : s.Good σ) (filed : s.Filed) (hq : s.providers.lookup p = some q) : Tabled s q := by
  have tables := filed.provider (mem_of_lookup hq)
  have lawful := Kind.protocol_lawful s.hasher
  exact ⟨filed _ (mem_of_lookup hq), tables.serves lawful, fun _ => tables.count_le lawful, fun _ => tables.count_iff lawful,
    fun k e he => ⟨tables.hash k e he, fun _ => hg.entry_unchanged hq ⟨e, he, rfl⟩⟩⟩

section Calls

structure Resolved (s : Session) (p : String) (q : Provider) (st : Step) (r : String) (i : Item) (u : Session) :
    Prop where
  whole : ∀ k x n, i = .entity k x → st.isCall = true → (step s st).1.verdict? = some (none, n) →
    ∃ y q', (step s st).2.2.register? r = some (.entity k y) ∧ (step s st).2.2.providers.lookup p = some q' ∧
      q.Resolves s.hasher u.nextObject x y q'
  within : ∀ held c, Relation.ReflTransGen (Call.Nested u.setting) ⟨i, held, u.work q⟩ c → ∀ k x, c.item = .entity k x →
    ∃ y v, (c.item.intern u.setting c.held).run c.work = (.entity k y, v) ∧ (v.failure = none →
      (Kind.protocol s.hasher).Run q.entities c.work.provider.entities ∧
        c.work.provider.Resolves s.hasher c.work.next x y v.provider)

lemma Settles.tables (h : Settles s p q st r i u σ τ v j) (filed : (Kind.protocol s.hasher).Filed q.entities) :
    (Kind.protocol u.setting.hasher).Filed (u.work q).provider.entities := by
  have hash : u.hasher = s.hasher := h.aside.hasher
  rw [← hash] at filed
  exact filed

lemma Settles.interns (h : Settles s p q st r (.entity k x) u σ τ v (.entity k y)) (hq : s.providers.lookup p = some q)
    (hst : st.isCall = true) (hf : v.failure = none) : q.Interns s.hasher u.nextObject x y v.provider := by
  have hash : u.hasher = s.hasher := h.aside.hasher
  obtain ⟨y', hy, ran⟩ := h.entity hst
  cases hy
  have interns := Kind.intern_interns (h.work hq) h.fits rfl (by rw [ran]; exact hf)
  rw [ran] at interns
  exact hash ▸ interns

theorem Calls.resolved (hg : s.Good σ) (filed : s.Filed) (hq : s.providers.lookup p = some q)
    (h : Calls s p st r i u) : Resolved s p q st r i u := by
  obtain ⟨σ, τ, v, j, settles⟩ := h.settles hg hq
  have hash : u.hasher = s.hasher := settles.aside.hasher
  have tables : (Kind.protocol s.hasher).Filed q.entities := filed.provider (mem_of_lookup hq)
  constructor
  · rintro k x n rfl hst ok
    obtain ⟨y, rfl, -⟩ := settles.entity hst
    have call := settles.receives hq hst
    obtain ⟨calm, -⟩ := settles.outcome ok
    exact ⟨y, v.provider, call.result calm, call.provider, (settles.interns hq hst calm).resolves tables⟩
  · intro held c hc k x hx
    have sound : Call.Sound u.setting ⟨i, held, u.work q⟩ := ⟨σ, settles.work hq, settles.fits⟩
    have before := sound.tables hc
    obtain ⟨y, v, ran, resolves⟩ := (sound.reaches hc).resolves
      (before.filed (Kind.protocol_lawful _) (settles.tables tables)) hx
    exact ⟨y, v, ran, fun he => ⟨hash ▸ before, hash ▸ resolves he⟩⟩

end Calls

section Conversions

inductive Gives (s : Session) (st : Step) (n : Nat) (i j : Item) : Prop
  | intro {p r : String} {u : Session} {z : Stats} : s.number? p = some n → Calls s p st r i u →
    (step s st).1.verdict? = some (none, z) → (step s st).2.2.register? r = some j → Gives s st n i j

/-- In step `st` the provider of number `n` made entity `y` of entity `x`: it interned `x`, alone or in a list, or it
prepared what holds `x`. -/
inductive Converts (s : Session) (st : Step) (n : Nat) : (k : Kind) → Handle k.Carrier → Handle k.Carrier → Prop
  | entity {k : Kind} {x y : Handle k.Carrier} : st.isCall = true → Gives s st n (.entity k x) (.entity k y) →
    Converts s st n k x y
  | element {k : Kind} {l m : EntityList k.Carrier} {x y : Handle k.Carrier} : st.isCall = true →
    Gives s st n (.list k l) (.list k m) → (x, y) ∈ l.items.zip m.items → Converts s st n k x y
  | part {j k : Kind} {v w : Handle j.Carrier} {x y : Handle k.Carrier} : st.isCall = false →
    Gives s st n (.entity j v) (.entity j w) →
    (Item.entity k x, Item.entity k y) ∈ (j.parts v.val).zip (j.parts w.val) → Converts s st n k x y

section Settles

variable (h : Settles s p q st r i u σ τ v j) (hq : s.providers.lookup p = some q)
  (filed : (Kind.protocol s.hasher).Filed q.entities) (hf : v.failure = none)

include h hq filed hf

lemma Settles.entered (hst : st.isCall = true) :
    (∀ k x y, i = .entity k x → j = .entity k y → Entered s.hasher v.provider k x y.id) ∧
      ∀ k l m, i = .list k l → j = .list k m →
        List.Forall₂ (fun x y => Entered s.hasher v.provider k x y.id) l.items m.items := by
  constructor
  · rintro k x y rfl rfl
    exact (h.interns hq hst hf).entered filed
  · rintro k l m rfl rfl
    have hash : u.hasher = s.hasher := h.aside.hasher
    have ran := h.interned hst
    rw [Item.intern, StateT.run_map] at ran
    obtain ⟨hm, rfl⟩ := Prod.mk.inj ran
    cases hm
    exact hash ▸ Kind.internList_entered (h.tables filed) (h.work hq) h.fits rfl hf

lemma Settles.prepared_entered (hst : st.isCall = false) {w : Handle k.Carrier} (hi : i = .entity k x)
    (hj : j = .entity k w) :
    List.Forall₂ (Item.Enters s.hasher v.provider) (k.parts x.val) (k.parts w.val) := by
  have hash : u.hasher = s.hasher := h.aside.hasher
  obtain ⟨act, performs, ran⟩ := h.performs
  cases performs with
  | interns hcall => simp [hst] at hcall
  | @prepares r' l x' held =>
    cases hi
    rw [StateT.run_map] at ran
    obtain ⟨hj', rfl⟩ := Prod.mk.inj ran
    cases hj.symm.trans hj'
    by_cases hz : x.id ∈ u.setting.frozen
    · rw [prepareInPlace_run_frozen hz] at hf
      cases hf
    · rw [prepareInPlace_run hz] at hf ⊢
      exact hash ▸ Kind.prepare_entered (h.tables filed) (h.work hq) (fun _ => h.fits.part) hf

end Settles

theorem Gives.entered (hg : s.Good σ) (filed : s.Filed) (h : Gives s st n i j) :
    ∃ b ∈ (step s st).2.2.providers, b.2.number = n ∧
      (st.isCall = true → (∀ k x y, i = .entity k x → j = .entity k y → Entered s.hasher b.2 k x y.id) ∧
        ∀ k l m, i = .list k l → j = .list k m →
          List.Forall₂ (fun x y => Entered s.hasher b.2 k x y.id) l.items m.items) ∧
      (st.isCall = false → ∀ (k : Kind) (x w : Handle k.Carrier), i = .entity k x → j = .entity k w →
        List.Forall₂ (Item.Enters s.hasher b.2) (k.parts x.val) (k.parts w.val)) := by
  cases h with
  | @intro p r u z number calls ok placed =>
    obtain ⟨q, hq, rfl⟩ := provider_of_number? number
    obtain ⟨σ', τ, v, j', settles⟩ := calls.settles hg hq
    obtain ⟨calm, -⟩ := settles.outcome ok
    have result := settles.leaves.delivered (.inl calm)
    obtain rfl : j' = j := Option.some.inj (result.symm.trans placed)
    have found : (p, v.provider) ∈ (step s st).2.2.providers := by
      rw [settles.leaves.providers]
      exact mem_of_lookup lookup_assign_self
    have tables := filed.provider (mem_of_lookup hq)
    exact ⟨_, found, settles.rewrite.grows.number, settles.entered hq tables calm, fun hst k x w =>
      settles.prepared_entered hq tables calm hst⟩

theorem Converts.entered (hg : s.Good σ) (filed : s.Filed) (h : Converts s st n k x y) :
    ∃ b ∈ (step s st).2.2.providers, b.2.number = n ∧ Entered s.hasher b.2 k x y.id := by
  cases h with
  | entity hst gives =>
    obtain ⟨b, hb, number, whole, -⟩ := gives.entered hg filed
    exact ⟨b, hb, number, (whole hst).1 k x y rfl rfl⟩
  | @element k l m x y hst gives hxy =>
    obtain ⟨b, hb, number, whole, -⟩ := gives.entered hg filed
    exact ⟨b, hb, number, List.forall₂_zip ((whole hst).2 k l m rfl rfl) hxy⟩
  | @part i k v w x y hst gives hxy =>
    obtain ⟨b, hb, number, -, parts⟩ := gives.entered hg filed
    exact ⟨b, hb, number, Item.enters_entity.mp (List.forall₂_zip (parts hst i v w rfl rfl) hxy)⟩

def Told (h : Hasher) (k k' : Kind) (x y : Handle k.Carrier) (x' y' : Handle k'.Carrier) : Prop :=
  ∃ q q' o o', Prepared h q k x.val o ∧ Prepared h q' k' x'.val o' ∧ (y.id = y'.id ↔ (Kind.protocol h).Agree o o')

namespace Told

variable {h : Hasher} {k' : Kind} {x' y' : Handle k'.Carrier}

lemma symm (ht : Told h k k' x y x' y') : Told h k' k x' y' x y := by
  obtain ⟨q, q', o, o', prepared, prepared', iff⟩ := ht
  have lawful := Kind.protocol_lawful h
  exact ⟨q', q, o', o, prepared', prepared, eq_comm.trans (iff.trans ⟨lawful.symm, lawful.symm⟩)⟩

lemma kind_eq (ht : Told h k k' x y x' y') (he : y.id = y'.id) : k = k' := by
  obtain ⟨_, _, _, _, -, -, iff⟩ := ht
  exact (iff.mp he).index

lemma probe {a b : ProbeSeries} {x y x' y' : Handle Probe}
    (ht : Told h (.probe a) (.probe b) x y x' y') :
    y.id = y'.id ↔ a = b ∧ x.val.hash = x'.val.hash ∧ x.val.tag = x'.val.tag := by
  obtain ⟨q, q', o, o', prepared, prepared', iff⟩ := ht
  obtain ⟨hash, tag⟩ := prepared.probe
  obtain ⟨hash', tag'⟩ := prepared'.probe
  rw [iff, agree_probe, hash, tag, hash', tag']

end Told

variable {steps : List Step} {st' : Step} {m m' d : Nat} {k' : Kind} {x' y' : Handle k'.Carrier}

lemma converts_told (hg : s.Good σ) (filed : s.Filed) (hst : steps[m]? = some st) (hst' : steps[m + d]? = some st')
    (h : Converts (s.after (steps.take m)) st n k x y) (h' : Converts (s.after (steps.take (m + d))) st' n k' x' y') :
    Told s.hasher k k' x y x' y' := by
  obtain ⟨τ, good, later⟩ := after_reaches hg (steps.take m)
  obtain ⟨τ', good', later'⟩ := after_reaches hg (steps.take (m + d))
  obtain ⟨b, hb, hbn, o, prepared, stands⟩ := h.entered good ((after_files hg _).filed filed)
  obtain ⟨c, hc, hcn, o', prepared', stands'⟩ := h'.entered good' ((after_files hg _).filed filed)
  rw [later.hasher] at prepared stands
  rw [later'.hasher] at prepared' stands'
  -- the entry that stood after the first of the two steps still stands after the second, whatever came between
  rw [← after_succ s hst] at hb
  rw [← after_succ s hst', Nat.add_right_comm, List.take_add, after_append] at hc
  obtain ⟨υ, between, later⟩ := after_reaches hg (steps.take (m + 1))
  have files := after_files between ((steps.drop (m + 1)).take d)
  have run := files.run between hb hc (hcn.trans hbn.symm)
  have tables := (files.filed ((after_files hg _).filed filed)).provider hc
  rw [files.hasher, later.hasher] at tables
  rw [later.hasher] at run
  have lawful := Kind.protocol_lawful s.hasher
  exact ⟨_, _, o, o', prepared, prepared', tables.stands_iff lawful (run.stands lawful stands) stands'⟩

lemma start_told (hasher : Hasher) (options : Options) (hst : steps[m]? = some st) (hst' : steps[m']? = some st')
    (h : Converts ((start hasher options).after (steps.take m)) st n k x y)
    (h' : Converts ((start hasher options).after (steps.take m')) st' n k' x' y') : Told hasher k k' x y x' y' := by
  obtain ⟨σ, good, -⟩ := start_good hasher options []
  have filed : (start hasher options).Filed := start_filed hasher options []
  rcases Nat.le_total m m' with hle | hle
  · obtain ⟨d, rfl⟩ := Nat.exists_eq_add_of_le hle
    exact converts_told good filed hst hst' h h'
  · obtain ⟨d, rfl⟩ := Nat.exists_eq_add_of_le hle
    exact (converts_told good filed hst' hst h' h).symm

end Conversions

theorem Calls.looked (hg : s.Good σ) (filed : s.Filed) (hq : s.providers.lookup p = some q)
    (h : Calls s p st r (.entity k x) u) (hst : st.isCall = true) (unregistered : ¬ q.Registered x.id)
    (unfrozen : x.id ∉ u.frozen) (hv : ∀ i ∈ k.parts x.val, q.Canonical s.hasher i) :
    (step s st).1.verdict? = some (none, q.stats.looked (q.canonicalCount s.hasher k x.val = 1)) := by
  obtain ⟨τ, υ, v, j, settles⟩ := h.settles hg hq
  obtain ⟨y, rfl, ran⟩ := settles.entity hst
  have hash : u.hasher = s.hasher := settles.aside.hasher
  have tables := settles.tables (filed.provider (mem_of_lookup hq))
  have work := settles.work hq
  rw [← hash] at hv ⊢
  obtain ⟨calm, stats⟩ := Kind.intern_prepared work settles.fits tables rfl unregistered unfrozen hv
  rw [ran] at calm stats
  rw [settles.leaves.verdict, calm, stats]
  rfl

theorem Good.copy_looked (hg : s.Good σ) (filed : s.Filed) (hq : s.providers.lookup p = some q)
    (hx : s.register? r = some (.entity k x)) (hv : ∀ i ∈ k.parts x.val, q.Canonical s.hasher i) (c : String) :
    (step s (.copyUnfrozen r c)).1 = .ok ∧ (step (step s (.copyUnfrozen r c)).2.2 (.intern p c)).1.verdict? =
      some (none, q.stats.looked (q.canonicalCount s.hasher k x.val = 1)) := by
  have ends := copyUnfrozen_run hx c
  have placed := register_of_put ends
  obtain ⟨answer, after⟩ := step_of_run ends
  obtain ⟨τ, good, later⟩ := step_reaches hg (.copyUnfrozen r c)
  have frozen : (step s (.copyUnfrozen r c)).2.2.frozen = s.frozen := by rw [after]; rfl
  have found : (step s (.copyUnfrozen r c)).2.2.providers.lookup p = some q :=
    (step_lookup_other hg (by simp [Step.provider?])).trans hq
  obtain ⟨canonical, agree⟩ := Kind.copy_prepared hv s.nextObject
  have tables := filed.provider (mem_of_lookup hq)
  have counted : q.canonicalCount s.hasher k x.val = 1 ↔ _ := tables.count_congr (Kind.protocol_lawful s.hasher) agree
  have unregistered : ¬ q.Registered (s.nextObject + 2) := by
    rintro ⟨j, z, hz, hid⟩
    have known := hg.object _ _ (hg.providers _ (mem_of_lookup hq) _ (.entry hz)).knows
    omega
  have unfrozen : s.nextObject + 2 ∉ s.frozen := fun hz => by
    have old := hg.frozen _ hz
    omega
  have looked := (Calls.intern placed).looked good ((step_files hg _).filed filed) found rfl unregistered
    (frozen ▸ unfrozen) (later.hasher.symm ▸ canonical)
  rw [later.hasher] at looked
  simp only [counted]
  exact ⟨answer, looked⟩

/-- The tables serve entities of any type, whatever the type has for a hash, as long as its equality is an equivalence.
-/
theorem tables_serve (hasher : Hasher) (options : Options) (steps : List Step) :
    let s := (start hasher options).after steps
    (∀ P : Protocol, P.Lawful → ∀ T, P.Run P.empty T → P.Serves T) ∧
    (∀ p q, s.providers.lookup p = some q → Tabled s q ∧
      (∀ st r i u, Calls s p st r i u → Resolved s p q st r i u) ∧
      ∀ r k x c, s.register? r = some (.entity k x) → (∀ i ∈ k.parts x.val, q.Canonical hasher i) →
        (step s (.copyUnfrozen r c)).1 = .ok ∧ (step (step s (.copyUnfrozen r c)).2.2 (.intern p c)).1.verdict? =
          some (none, q.stats.looked (q.canonicalCount hasher k x.val = 1))) ∧
    ∀ m m' st st' n, steps[m]? = some st → steps[m']? = some st' →
      (∀ a b (x y x' y' : Handle Probe), Converts ((start hasher options).after (steps.take m)) st n (.probe a) x y →
        Converts ((start hasher options).after (steps.take m')) st' n (.probe b) x' y' →
        (y.id = y'.id ↔ a = b ∧ x.val.hash = x'.val.hash ∧ x.val.tag = x'.val.tag)) ∧
      ∀ k k' (x y : Handle k.Carrier) (x' y' : Handle k'.Carrier),
        Converts ((start hasher options).after (steps.take m)) st n k x y →
        Converts ((start hasher options).after (steps.take m')) st' n k' x' y' → k ≠ k' → y.id ≠ y'.id := by
  intro s
  obtain ⟨σ, good, hash⟩ : ∃ σ, s.Good σ ∧ s.hasher = hasher := start_good hasher options steps
  have filed : s.Filed := start_filed hasher options steps
  refine ⟨fun P hP T => Protocol.serves_of_run hP, fun p q hq => ⟨good.tabled filed hq, fun st r i u h =>
    h.resolved good filed hq, fun r k x c hx hv => ?_⟩, fun m m' st st' n hst hst' => ⟨?_, ?_⟩⟩
  · rw [← hash] at hv ⊢
    exact good.copy_looked filed hq hx hv c
  · intro a b x y x' y' h h'
    exact (start_told hasher options hst hst' h h').probe
  · intro k k' x y x' y' h h' hne he
    exact hne ((start_told hasher options hst hst' h h').kind_eq he)

theorem tables_serve_colliding :
    let P : Protocol := ⟨Unit, fun _ => UInt64, fun _ v => v, fun _ _ _ => true, inferInstance⟩
    let T := (P.settle (P.settle P.empty () ⟨0, 1⟩).2 () ⟨1, 2⟩).2
    let steps := [.bind "a" (.entity (.probe .first) (.make 0 1 none false)), .intern "P" "a",
      .bind "b" (.entity (.probe .first) (.make 0 1 (some (.make 0 2 none false)) false)), .intern "P" "b",
      .bind "c" (.entity (.probe .second) (.make 0 1 none false)), .intern "P" "c"]
    let s := (start .colliding ⟨false, 0⟩).after (steps.take 5)
    P.Serves T ∧ (T ()).length = 2 ∧
      ∃ (q q' : Provider) (x y z w : Handle Probe), s.providers.lookup "P" = some q ∧
        s.register? "a" = some (.entity (.probe .first) x) ∧ s.register? "b" = some (.entity (.probe .first) y) ∧
        s.register? "c" = some (.entity (.probe .second) z) ∧
        (step s (.intern "P" "c")).2.2.register? "c" = some (.entity (.probe .second) w) ∧
        (step s (.intern "P" "c")).2.2.providers.lookup "P" = some q' ∧
        x.id = y.id ∧ w.id ≠ y.id ∧ q.Resolves .colliding s.nextObject (k := .probe .second) z w q' ∧
        (step (step s (.copyUnfrozen "b" "d")).2.2 (.intern "P" "d")).1.verdict? =
          some (none, { q.stats with hits := q.stats.hits + 1 }) := by
  intro P T steps s
  have lawful : P.Lawful := fun _ => ⟨fun _ => rfl, fun _ => rfl, fun _ _ => rfl⟩
  have run : P.Run P.empty T := by
    refine .tail (.single (.settle ?_)) (.settle ?_)
    · simp [Protocol.Free, Protocol.empty]
    · rintro ⟨⟩ e he
      have first : (P.settle P.empty () ⟨0, 1⟩).2 () = [⟨1, ⟨0, 1⟩⟩] := rfl
      rw [first, List.mem_singleton] at he
      subst he
      decide
  obtain ⟨serves, -, told⟩ := tables_serve .colliding ⟨false, 0⟩ steps
  let a : Handle Probe := ⟨3, .mk 0 1 none⟩
  let b : Handle Probe := ⟨5, .mk 0 1 (some ⟨4, .mk 0 2 none⟩)⟩
  let c : Handle Probe := ⟨6, .mk 0 1 none⟩
  have first : Converts ((start .colliding ⟨false, 0⟩).after (steps.take 1)) (.intern "P" "a") 0 (.probe .first) a a :=
    .entity rfl (.intro rfl (.intern rfl) rfl rfl)
  have second : Converts ((start .colliding ⟨false, 0⟩).after (steps.take 3)) (.intern "P" "b") 0 (.probe .first) b a :=
    .entity rfl (.intro rfl (.intern rfl) rfl rfl)
  have bound : ((s.providers.lookup "P").map fun q => q.canonicalCount .colliding (.probe .first) a.val) = some 1 := by
    decide +kernel
  obtain ⟨q, hq, count⟩ := Option.map_eq_some_iff.mp bound
  obtain ⟨-, within, -⟩ := tables_serve .colliding ⟨false, 0⟩ (steps.take 5)
  obtain ⟨-, resolved, copied⟩ := within "P" q hq
  have hc : s.register? "c" = some (.entity (.probe .second) c) := rfl
  have succeeds : ∃ n, (step s (.intern "P" "c")).1.verdict? = some (none, n) := ⟨_, rfl⟩
  obtain ⟨n, ok⟩ := succeeds
  obtain ⟨w, q', hw, hq', resolves⟩ := (resolved _ _ _ _ (.intern hc)).whole (.probe .second) c n rfl rfl ok
  obtain ⟨-, looked⟩ := copied "b" (.probe .first) a "d" rfl (by simp [Kind.parts, Probe.parts, a, Provider.Canonical])
  rw [Stats.looked, if_pos count] at looked
  obtain ⟨probes, -⟩ := told 1 3 _ _ 0 rfl rfl
  obtain ⟨-, kinds⟩ := told 5 3 _ _ 0 rfl rfl
  have same := (probes .first .first a a b a first second).mpr ⟨rfl, rfl, rfl⟩
  have third : Converts s (.intern "P" "c") 0 (.probe .second) c w := .entity rfl (.intro rfl (.intern hc) ok hw)
  have apart := kinds (.probe .second) (.probe .first) c w b a third second (by decide)
  exact ⟨serves P lawful T run, rfl, q, q', a, a, c, w, hq, rfl, rfl, hc, hw, hq', same, apart, resolves, looked⟩

end CodeModel.Session
