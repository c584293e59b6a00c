import CodeModel.Proofs.Session.Calls

namespace CodeModel

section Accounts

variable {p q : Provider} {es es' : List Event} {n : Nat}

structure Provider.Accounted (p : Provider) (es : List Event) : Prop where
  registered : p.entityCount = SharedType.all.length + findings es p.number .registered
  entered : p.misses + SharedType.all.length = p.entityCount + p.listCount
  lookups : p.hits + p.misses =
    findings es p.number .reused + findings es p.number .registered + findings es p.number .listed

namespace Provider.Accounted

lemma logs (h : p.Accounted es) (hl : p.Logs es' q) : q.Accounted (es ++ es') := by
  have := h.registered
  have := h.entered
  have := h.lookups
  have := hl.registered
  have := hl.entered
  have := hl.lookups
  constructor
  · rw [findings_append, hl.number]
    omega
  · omega
  · simp only [findings_append, hl.number]
    omega

lemma other (h : p.Accounted es) (ho : ∀ f, findings es' p.number f = 0) : p.Accounted (es ++ es') where
  registered := by simp [findings_append, ho, h.registered]
  entered := h.entered
  lookups := by simp [findings_append, ho, h.lookups]

lemma create {h : Hasher} {label : Nat} {options : Options} (hn : ∀ f, findings es n f = 0) :
    (Provider.create h n label options).Accounted es := by
  have number : (Provider.create h n label options).number = n := rfl
  refine ⟨?_, rfl, ?_⟩
  · rw [number, hn]
    rfl
  · rw [number, hn, hn, hn]
    rfl

end Provider.Accounted

lemma Provider.Sound.done {z : Setting} {w : Work} {i : Item} (hq : w.provider.Sound z.hasher)
    (hi : i = .nothing ∨ w.provider.Settled i) (held : Held) : i.Done z held w := by
  rcases hi with rfl | hi
  · trivial
  cases i with
  | entity k x => exact hq.isCanonical held hi
  | list k l => exact hq.passes_list hi
  | _ => exact hi.elim

end Accounts

namespace Session

variable {σ : Store} {s t : Session} {p : String} {q : Provider} {es es' : List Event}

def trace (s : Session) : List Step → List Event
  | [] => []
  | st :: steps => (step s st).2.1 ++ trace (step s st).2.2 steps

structure Balanced (s : Session) (es : List Event) : Prop where
  accounted : ∀ b ∈ s.providers, b.2.Accounted es
  numbered : ∀ e ∈ es, ∀ n f, e.finding? = some (n, f) → n < s.nextProvider

namespace Balanced

lemma fresh (h : s.Balanced es) (f : Finding) : findings es s.nextProvider f = 0 :=
  findings_eq_zero fun e he hf => (h.numbered e he _ _ hf).false

lemma quiet (h : s.Balanced es) (silent : ∀ e ∈ es', e.finding? = none)
    (hp : ∀ b ∈ t.providers, b ∈ s.providers) (hn : t.nextProvider = s.nextProvider) : t.Balanced (es ++ es') where
  accounted b hb := (h.accounted b (hp b hb)).other (findings_silent silent _)
  numbered e he n f hf := by
    rcases List.mem_append.mp he with he | he
    · exact hn ▸ h.numbered e he n f hf
    · simp [silent e he] at hf

lemma took {q' : Provider} (h : s.Balanced es) (hg : s.Good σ) (hq : s.providers.lookup p = some q)
    (logs : q.Logs es' q') (hp : t.providers = assign p q' s.providers) (hn : t.nextProvider = s.nextProvider) :
    t.Balanced (es ++ es') where
  accounted b hb := by
    rw [hp, mem_assign hg.namedOnce] at hb
    rcases hb with rfl | ⟨hb, hbp⟩
    · exact (h.accounted _ (mem_of_lookup hq)).logs logs
    · refine (h.accounted b hb).other fun f => findings_eq_zero fun e he hf => hbp ?_
      rw [hg.numberedOnce b hb _ (mem_of_lookup hq) (logs.own e he _ f hf)]
  numbered e he n f hf := by
    rcases List.mem_append.mp he with he | he
    · exact hn ▸ h.numbered e he n f hf
    · rw [hn, logs.own e he n f hf]
      exact hg.numbered _ (mem_of_lookup hq)

theorem step (h : s.Balanced es) (hg : s.Good σ) (st : Step) :
    (step s st).2.2.Balanced (es ++ (step s st).2.1) := by
  rcases step_effect hg st with ⟨hp, hn, silent⟩ | ⟨hq, takes, hp, hn⟩ | ⟨hp, hn, he⟩ | ⟨hp, hn, he⟩
  · exact h.quiet silent (fun b hb => hp ▸ hb) hn
  · exact h.took hg hq takes.logs hp hn
  · exact h.quiet (by simp [he]) (fun b hb => (mem_unassign.mp (hp ▸ hb)).1) hn
  · have silent (n : Nat) (f : Finding) : findings (s.step st).2.1 n f = 0 :=
      findings_silent (by simp [he, Event.finding?]) n f
    refine ⟨fun b hb => ?_, fun e hes n f hf => ?_⟩
    · rw [hp, mem_assign hg.namedOnce] at hb
      rcases hb with rfl | ⟨hb, -⟩
      · exact (Provider.Accounted.create h.fresh).other (silent _)
      · exact (h.accounted b hb).other (silent _)
    · rcases List.mem_append.mp hes with hes | hes
      · exact hn ▸ (h.numbered e hes n f hf).trans (Nat.lt_succ_self _)
      · rw [he, List.mem_singleton] at hes
        simp [hes, Event.finding?] at hf

theorem after (h : s.Balanced es) (hg : s.Good σ) (steps : List Step) :
    (s.after steps).Balanced (es ++ s.trace steps) := by
  induction steps generalizing s σ es with
  | nil =>
    rw [trace, List.append_nil]
    exact h
  | cons st steps ih =>
    obtain ⟨τ, good, -⟩ := step_reaches hg st
    rw [trace, ← List.append_assoc]
    exact ih (h.step hg st) good

end Balanced

lemma start_balanced (hasher : Hasher) (options : Options) (steps : List Step) :
    ((start hasher options).after steps).Balanced ((start hasher options).trace steps) := by
  have created : (start hasher options).Balanced [] := by
    refine ⟨fun b hb => ?_, by simp⟩
    rcases mem_of_mem_assign hb with rfl | hb
    · exact .create fun _ => rfl
    · cases hb
  obtain ⟨σ, good, -⟩ := start_good hasher options []
  exact created.after good steps

lemma step_events {st : Step} {r : Option ModelError × Stats} (h : (step s st).1.verdict? = some r) :
    (step s st).2.1 = (step s st).2.2.events := by
  cases hrun : (run st).run { s with events := [] } with
  | none => simp [step, hrun, Answer.verdict?] at h
  | some r => simp [step, hrun]

lemma Calls.idle {u : Session} {st : Step} {r : String} {i : Item} (h : Calls s p st r i u) (hg : s.Good σ)
    (hq : s.providers.lookup p = some q) (hst : st.isCall = true) (hi : i = .nothing ∨ q.Settled i) :
    (step s st).2.1 = [] ∧ (step s st).2.2.providers.lookup p = some q := by
  obtain ⟨σ, τ, v, j, settles⟩ := h.settles hg hq
  obtain ⟨act, performs, ran⟩ := settles.performs
  cases performs with
  | prepares => cases hst
  | @interns _ _ held =>
    have sound : (u.work q).provider.Sound u.setting.hasher := (settles.work hq).sound
    have done := Item.intern_done rfl (sound.done hi held)
    rw [done, Prod.mk.injEq] at ran
    obtain ⟨-, rfl⟩ := ran
    rw [step_events settles.leaves.verdict, settles.leaves.events, settles.leaves.providers, lookup_assign_self]
    exact ⟨settles.aside.events, rfl⟩

/-- At every point of a run the counts of a provider are the sizes of its tables and the look-ups reported for it. -/
theorem counts_balance (hasher : Hasher) (options : Options) (steps : List Step) :
    let s := (start hasher options).after steps
    let es := (start hasher options).trace steps
    (∀ p q, s.providers.lookup p = some q →
      q.stats.entities = (Provider.kinds.map fun k => (q.entities k).length).sum ∧
      q.stats.lists = (Provider.kinds.map fun k => (q.lists k).length).sum ∧
      q.stats.misses + 3 = q.stats.entities + q.stats.lists ∧
      findings es q.number .registered + 3 = q.stats.entities ∧
      q.stats.hits + q.stats.misses =
        findings es q.number .reused + findings es q.number .registered + findings es q.number .listed) ∧
      (∀ p q st r i u, s.providers.lookup p = some q → Calls s p st r i u → st.isCall = true →
        (i = .nothing ∨ q.Settled i) → (step s st).2.1 = [] ∧ (step s st).2.2.providers.lookup p = some q) ∧
      ∀ (z : Setting) (held : Held) (w : Work) (i : Item), w.failure = none →
        (i.Done z held w → (i.intern z held).run w = (i, w)) ∧
        (((i.intern z held).run w).2.failure ≠ none →
          ((i.intern z held).run w).2 = { w with failure := ((i.intern z held).run w).2.failure } ∨
            Nested z w ((i.intern z held).run w).2 i) := by
  intro s es
  obtain ⟨σ, good, -⟩ := start_good hasher options steps
  refine ⟨fun p q hq => ?_, fun p q st r i u hq h => h.idle good hq,
    fun z held w i hf => ⟨Item.intern_done hf, i.intern_own held hf⟩⟩
  have sound := good.sound _ (mem_of_lookup hq)
  have accounted := (start_balanced hasher options steps).accounted _ (mem_of_lookup hq)
  refine ⟨sound.entityCount, sound.listCount, accounted.entered, ?_, accounted.lookups⟩
  rw [Nat.add_comm]
  exact accounted.registered.symm

theorem counts_balance_failing :
    let steps := [.bind "e" (.entity .typeRef (.named "N" "E" [])), .bind "f" (.entity .typeRef (.named "N" "F" [])),
      .freeze "f", .bind "l" (.list .attr []),
      .bind "a" (.entity .attr (.make (.register "e") [.make (.register "f") (.plain .null)] []
        ⟨none, ⟨0, 0⟩, ⟨0, 0⟩⟩)),
      .intern "P" "a"]
    let s := (start .colliding ⟨false, 0⟩).after steps
    ∃ q, s.providers.lookup "P" = some q ∧ q.stats.entities = 4 ∧ q.stats.misses = 1 ∧
      findings ((start .colliding ⟨false, 0⟩).trace steps) q.number .registered = 1 ∧
      (step s (.intern "P" "l")).2.1 = [] ∧
      ∀ held, ((Item.list .attr ⟨false, 0, []⟩).intern s.setting held).run (s.work q) =
        (.list .attr ⟨false, 0, []⟩, s.work q) := by
  intro steps s
  have stats : (s.providers.lookup "P").map (fun q => (q.stats.entities, q.stats.lists)) = some (4, 0) := by
    decide +kernel
  obtain ⟨q, hq, counts⟩ := Option.map_eq_some_iff.mp stats
  obtain ⟨entities, lists⟩ := Prod.mk.inj counts
  obtain ⟨i, hi, empty⟩ : ∃ i, s.register? "l" = some i ∧ q.Settled i := ⟨_, rfl, .inl rfl⟩
  obtain ⟨balance, idle, within⟩ := counts_balance .colliding ⟨false, 0⟩ steps
  obtain ⟨-, -, misses, registered, -⟩ := balance "P" q hq
  refine ⟨q, hq, entities, by omega, by omega, ?_, fun held => ?_⟩
  · exact (idle "P" q _ "l" i _ hq (.intern hi) rfl (.inr empty)).1
  · exact (within s.setting held (s.work q) (.list .attr ⟨false, 0, []⟩) rfl).1 (.inl rfl)

end Session

end CodeModel
