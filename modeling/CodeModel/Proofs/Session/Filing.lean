import CodeModel.Proofs.Session.History
import CodeModel.Proofs.Session.Providers

/-! Each provider began with empty tables, and what happened to them since are steps of the protocol. -/

namespace CodeModel.Session

variable {σ : Store} {s t u : Session} {es : List Event} {st : Step}

structure Files (s t : Session) : Prop where
  hasher : t.hasher = s.hasher
  nextProvider : s.nextProvider ≤ t.nextProvider
  providers : ∀ c ∈ t.providers,
    (∃ b ∈ s.providers, b.2.number = c.2.number ∧ (Kind.protocol s.hasher).Run b.2.entities c.2.entities) ∨
      s.nextProvider ≤ c.2.number ∧ (Kind.protocol s.hasher).Run (Kind.protocol s.hasher).empty c.2.entities

namespace Files

lemma refl (s : Session) : Files s s := ⟨rfl, le_rfl, fun c hc => .inl ⟨c, hc, rfl, .refl⟩⟩

lemma trans (h : Files s t) (h' : Files t u) : Files s u where
  hasher := h'.hasher.trans h.hasher
  nextProvider := h.nextProvider.trans h'.nextProvider
  providers c hc := by
    rcases h'.providers c hc with ⟨b, hb, hbc, hr'⟩ | ⟨hn, hr⟩
    · rw [h.hasher] at hr'
      rw [← hbc]
      rcases h.providers b hb with ⟨a, ha, hab, hr⟩ | ⟨hn, hr⟩
      · exact .inl ⟨a, ha, hab, hr.trans hr'⟩
      · exact .inr ⟨hn, hr.trans hr'⟩
    · exact .inr ⟨h.nextProvider.trans hn, h.hasher ▸ hr⟩

lemma run (h : Files s t) (hg : s.Good σ) {b c : String × Provider} (hb : b ∈ s.providers) (hc : c ∈ t.providers)
    (hn : c.2.number = b.2.number) : (Kind.protocol s.hasher).Run b.2.entities c.2.entities := by
  rcases h.providers c hc with ⟨a, ha, hac, hr⟩ | ⟨hge, -⟩
  · rwa [hg.numberedOnce b hb a ha (hn.symm.trans hac.symm)]
  · have := hg.numbered b hb
    omega

end Files

def Filed (s : Session) : Prop :=
  ∀ b ∈ s.providers, (Kind.protocol s.hasher).Run (Kind.protocol s.hasher).empty b.2.entities

lemma Filed.provider (h : s.Filed) {b : String × Provider} (hb : b ∈ s.providers) :
    (Kind.protocol s.hasher).Filed b.2.entities :=
  (h b hb).filed (Kind.protocol_lawful s.hasher) Protocol.filed_empty

lemma Files.filed (h : Files s t) (hs : s.Filed) : t.Filed := by
  intro c hc
  rw [h.hasher]
  rcases h.providers c hc with ⟨b, hb, -, hr⟩ | ⟨-, hr⟩
  · exact (hs b hb).trans hr
  · exact hr

lemma Effect.files (h : Effect s es t) (hh : t.hasher = s.hasher) : Files s t := by
  have kept (c : String × Provider) (hc : c ∈ s.providers) : (∃ b ∈ s.providers, b.2.number = c.2.number ∧
      (Kind.protocol s.hasher).Run b.2.entities c.2.entities) := ⟨c, hc, rfl, .refl⟩
  rcases h with ⟨hp, hn, -⟩ | ⟨hq, takes, hp, hn⟩ | ⟨hp, hn, -⟩ | ⟨hp, hn, -⟩
  · exact ⟨hh, hn.ge, fun c hc => .inl (kept c (hp ▸ hc))⟩
  · refine ⟨hh, hn.ge, fun c hc => .inl ?_⟩
    rcases mem_of_mem_assign (hp ▸ hc) with rfl | hc
    · exact ⟨_, mem_of_lookup hq, takes.grows.number.symm, takes.tables⟩
    · exact kept c hc
  · exact ⟨hh, hn.ge, fun c hc => .inl (kept c (mem_unassign.mp (hp ▸ hc)).1)⟩
  · refine ⟨hh, hn ▸ Nat.le_succ _, fun c hc => ?_⟩
    rcases mem_of_mem_assign (hp ▸ hc) with rfl | hc
    · exact .inr ⟨le_rfl, Provider.create_run ..⟩
    · exact .inl (kept c hc)

theorem step_files (hg : s.Good σ) (st : Step) : Files s (step s st).2.2 := by
  obtain ⟨τ, -, later⟩ := step_reaches hg st
  exact (step_effect hg st).files later.hasher

theorem after_files (hg : s.Good σ) (steps : List Step) : Files s (s.after steps) := by
  induction steps generalizing s σ with
  | nil => exact .refl s
  | cons st steps ih =>
    obtain ⟨τ, good, -⟩ := step_reaches hg st
    exact (step_files hg st).trans (ih good)

theorem start_filed (hasher : Hasher) (options : Options) (steps : List Step) :
    ((start hasher options).after steps).Filed := by
  obtain ⟨σ, good, -⟩ := start_good hasher options []
  refine (after_files good steps).filed fun b hb => ?_
  rcases mem_of_mem_assign hb with rfl | hb
  · exact Provider.create_run ..
  · cases hb

end CodeModel.Session
