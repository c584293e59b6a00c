import CodeModel.Proofs.Session.Changing
import CodeModel.Session.Run

/-! What a session goes on to: frozen objects stay frozen, and providers only grow. -/

namespace CodeModel.Session

structure Later (σ : Store) (s : Session) (τ : Store) (t : Session) : Prop where
  hasher : t.hasher = s.hasher
  extends' : σ.Extends τ
  nextObject : s.nextObject ≤ t.nextObject
  nextProvider : s.nextProvider ≤ t.nextProvider
  frozen : ∀ id ∈ s.frozen, id ∈ t.frozen
  kept : ∀ id ∈ s.frozen, τ.object id = σ.object id
  providers : ∀ c ∈ t.providers, (∃ b ∈ s.providers, b.2.Grows s.hasher c.2) ∨ s.nextProvider ≤ c.2.number

def Reaches (σ : Store) (s t : Session) : Prop := ∃ τ, t.Good τ ∧ Later σ s τ t

variable {σ τ υ : Store} {s t u : Session} {is : List Item} {free : List Nat}

lemma Later.refl (σ : Store) (s : Session) : Later σ s σ s :=
  ⟨rfl, .refl σ, le_rfl, le_rfl, fun _ h => h, fun _ _ => rfl, fun c hc => .inl ⟨c, hc, .refl s.hasher c.2⟩⟩

lemma Later.trans (h : Later σ s τ t) (h' : Later τ t υ u) : Later σ s υ u where
  hasher := h'.hasher.trans h.hasher
  extends' := h.extends'.trans h'.extends'
  nextObject := h.nextObject.trans h'.nextObject
  nextProvider := h.nextProvider.trans h'.nextProvider
  frozen id hid := h'.frozen id (h.frozen id hid)
  kept id hid := (h'.kept id (h.frozen id hid)).trans (h.kept id hid)
  providers c hc := by
    rcases h'.providers c hc with ⟨b, hb, hbc⟩ | hn
    · rw [h.hasher] at hbc
      rcases h.providers b hb with ⟨a, ha, hab⟩ | hn
      · exact .inl ⟨a, ha, hab.trans hbc⟩
      · exact .inr (hbc.number ▸ hn)
    · exact .inr (h.nextProvider.trans hn)

lemma Reaches.trans (h : Reaches σ s t) (h' : ∀ τ, t.Good τ → Reaches τ t u) : Reaches σ s u := by
  obtain ⟨τ, hg, hl⟩ := h
  obtain ⟨υ, hg', hl'⟩ := h' τ hg
  exact ⟨υ, hg', hl.trans hl'⟩

lemma reaches_refl (hg : s.Good σ) : Reaches σ s s := ⟨σ, hg, .refl σ s⟩

lemma Built.later (hg : s.Good σ) (h : Built σ s τ t) : Later σ s τ t := by
  refine ⟨by rw [h.same], h.extends', h.nextObject, by rw [h.same], h.frozen,
    fun id hid => h.object id (hg.frozen id hid), ?_⟩
  intro c hc
  rw [h.same] at hc
  exact .inl ⟨c, hc, .refl _ _⟩

lemma Hand.reaches (hg : s.Good σ) (h : Hand σ s is free t) : Reaches σ s t := by
  obtain ⟨τ, hg', hb, -⟩ := h
  exact ⟨τ, hg', hb.later hg⟩

lemma Hand.put {r : String} {i : Item} (hg : s.Good σ) (h : Hand σ s (i :: is) free t)
    (hd : ∀ d, i = .definition d → s.nextObject ≤ d.id) : Reaches σ s (t.put r i) := by
  obtain ⟨τ, hg', hb, hf, -⟩ := h
  have good : (t.put r i).Good τ := by
    apply (hg'.without r).put hg'.boundOnce (hf i (by simp))
    intro d hi b hbt _ e he hid
    have hbs : b ∈ s.registers := by
      rw [hb.same] at hbt
      exact hbt
    have known := (hg.registers b hbs).knows
    rw [he] at known
    have := hg.object e.id _ known
    have := hd d hi
    omega
  exact ⟨τ, good, { hb.later hg with }⟩

def Moves {α : Type} (act : Builder α) : Prop :=
  ∀ σ s, s.Good σ → act.Makes (· = s) (fun _ t => Reaches σ s t)

lemma moves_of_hand {α : Type} {act : Builder α}
    (h : ∀ σ s, s.Good σ → act.Makes (Hand σ s [] []) (fun _ t => Reaches σ s t)) : Moves act := by
  intro σ s hg
  apply (h σ s hg).weaken
  intro t ht
  rw [ht]
  exact hand_start hg

def Reads {α : Type} (act : Builder α) : Prop := ∀ s, act.Makes (· = s) (fun _ t => t = s)

section Reads

variable {α β : Type}

lemma Reads.moves {act : Builder α} (h : Reads act) : Moves act := fun _ s hg =>
  (h s).imp fun _ _ ht => ht.symm ▸ reaches_refl hg

lemma Reads.bind {act : Builder α} {next : α → Builder β} (h : Reads act) (h' : ∀ a, Reads (next a)) :
    Reads (act >>= next) := fun s => (h s).bind fun a => h' a s

lemma reads_pure (a : α) : Reads (pure a : Builder α) := fun _ => .pure fun _ h => h

lemma reads_failure : Reads (failure : Builder α) := fun _ => .failure

lemma reads_get : Reads (get : Builder Session) := fun _ => .get fun _ h => h

lemma reads_ofOption (o : Option α) : Reads (Builder.ofOption o) := fun _ => .ofOption fun _ _ _ h => h

lemma reads_register (name : String) : Reads (Builder.register name) :=
  reads_get.bind fun _ => reads_ofOption _

lemma reads_provider (name : String) : Reads (provider name) := reads_get.bind fun _ => reads_ofOption _

end Reads

end CodeModel.Session
