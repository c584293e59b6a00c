import CodeModel.Proofs.Interning.Whole
import CodeModel.Proofs.Session.Bindings

/-! The invariant of a session: a store that all it holds fits, and frozen objects that hold frozen ones. -/

namespace CodeModel

namespace Session

structure Good (σ : Store) (s : Session) : Prop where
  registers : ∀ b ∈ s.registers, σ.Fits b.2
  providers : ∀ b ∈ s.providers, b.2.Fits s.hasher σ
  pools : ∀ b ∈ s.pools, ∀ a t, b.2.find? s.hasher a = some t → σ.Fits (.text t)
  shared : ∀ t : SharedType, σ.Fits (.entity .typeRef t.handle)
  empty : σ.Fits (.text .empty)
  sound : ∀ b ∈ s.providers, b.2.Sound s.hasher
  object : ∀ id i, σ.object id = some i → id < s.nextObject
  list : ∀ id a, σ.list id = some a → id < s.nextObject
  text : ∀ id a, σ.text id = some a → id < s.nextText
  boundOnce : BoundOnce s.registers
  namedOnce : BoundOnce s.providers
  numbered : ∀ b ∈ s.providers, b.2.number < s.nextProvider
  numberedOnce : ∀ b ∈ s.providers, ∀ c ∈ s.providers, b.2.number = c.2.number → b = c
  ownedOnce : ∀ b ∈ s.registers, ∀ c ∈ s.registers, ∀ d e, b.2 = .definition d → c.2 = .definition e →
    d.id = e.id → b = c
  frozen : ∀ id ∈ s.frozen, id < s.nextObject
  closed : σ.Closed Item.IsModel s.frozen

def Keeps (s : Session) (p : Option String) (id : Nat) : Prop :=
  (∃ b ∈ s.registers, b.2.Labels id) ∨ (∃ t : SharedType, t.handle.id = id) ∨
    ∃ b ∈ s.providers, some b.1 ≠ p ∧ b.2.Registered id

def without (s : Session) (r : String) : Session := { s with registers := unassign r s.registers }

variable {σ τ : Store} {s t : Session}

lemma isSoleHolder_eq (s : Session) (r : String) (id : Nat) :
    s.isSoleHolder r id = !(s.without r).heldBeside none none id := rfl

namespace Good

lemma withEvents (hg : s.Good σ) (events : List Event) : ({ s with events } : Session).Good σ := { hg with }

lemma without (hg : s.Good σ) (r : String) : (s.without r).Good σ where
  __ := hg
  registers b hb := hg.registers b (mem_unassign.mp hb).1
  boundOnce := hg.boundOnce.unassign
  ownedOnce b hb c hc := hg.ownedOnce b (mem_unassign.mp hb).1 c (mem_unassign.mp hc).1

lemma shared_closed (hg : s.Good σ) : σ.Closed (fun _ => True) SharedType.marks := by
  intro id hid i hi _ l hl
  obtain ⟨t, rfl⟩ := SharedType.mem_marks.mp hid
  have known := (hg.shared t).knows
  rw [Store.Knows, hi, Option.some.injEq] at known
  subst known
  exact SharedType.mem_marks.mpr ⟨t, Item.labels_shared.mp hl⟩

theorem heldBeside_iff (hg : s.Good σ) (p : Option String) (id : Nat) :
    s.heldBeside none p id = true ↔ s.Keeps p id := by
  have marks : id ∈ s.registers.foldl (fun m b => b.2.mark m) SharedType.marks ↔
      id ∈ SharedType.marks ∨ ∃ b ∈ s.registers, b.2.Labels id := by
    have fold : s.registers.foldl (fun m b => b.2.mark m) SharedType.marks =
        markAll (s.registers.map Prod.snd) SharedType.marks := by
      rw [markAll, List.foldl_map]
    have fits : ∀ i ∈ s.registers.map Prod.snd, σ.Fits i := by
      simp only [List.mem_map]
      rintro i ⟨b, hb, rfl⟩
      exact hg.registers b hb
    rw [fold, mem_markAll fits _ hg.shared_closed]
    simp only [List.mem_map, exists_exists_and_eq_and]
  have providers : (p.elim s.providers (unassign · s.providers)).any (·.2.holds id) = true ↔
      ∃ b ∈ s.providers, some b.1 ≠ p ∧ b.2.Registered id := by
    cases p with
    | none => simp [Provider.holds_iff]
    | some p => simp [Provider.holds_iff, mem_unassign, and_assoc]
  simp only [heldBeside, Option.elim_none, Bool.or_eq_true, providers, List.contains_iff_mem, marks,
    SharedType.mem_marks, Keeps]
  rw [or_assoc, or_left_comm]

lemma object_of_keeps (hg : s.Good σ) {p : Option String} {id : Nat} (h : s.Keeps p id) :
    ∃ i, σ.object id = some i := by
  rcases h with ⟨b, hb, hl⟩ | ⟨t, rfl⟩ | ⟨b, hb, -, k, x, hx, rfl⟩
  · obtain ⟨i, -, -, hi⟩ := (hg.registers b hb).object_of_labels hl
    exact ⟨i, hi⟩
  · exact ⟨_, (hg.shared t).knows⟩
  · exact ⟨_, (hg.providers b hb _ (.entry hx)).knows⟩

theorem store (hg : s.Good σ) (he : σ.Extends τ)
    (hk : ∀ id, s.Keeps none id ∨ id ∈ s.frozen → τ.object id = σ.object id) {m n : Nat}
    (hm : s.nextObject ≤ m) (object : ∀ id i, τ.object id = some i → id < m)
    (list : ∀ id a, τ.list id = some a → id < m) (text : ∀ id a, τ.text id = some a → id < n) :
    ({ s with nextObject := m, nextText := n } : Session).Good τ where
  __ := hg
  registers b hb := (hg.registers b hb).mono he fun id hl => hk id (.inl (.inl ⟨b, hb, hl⟩))
  providers b hb := (hg.sound b hb).fits_mono (hg.providers b hb) he fun id hr =>
    hk id (.inl (.inr (.inr ⟨b, hb, by simp, hr⟩)))
  pools b hb a t ht := (hg.pools b hb a t ht).mono he (by simp)
  shared t := (hg.shared t).mono he fun id hl => hk id (.inl (.inr (.inl ⟨t, Item.labels_shared.mp hl⟩)))
  empty := hg.empty.mono he (by simp)
  object := object
  list := list
  text := text
  frozen id hid := (hg.frozen id hid).trans_le hm
  closed id hid i hi := hg.closed id hid i (hk id (.inr hid) ▸ hi)

theorem put {r : String} {i : Item} (hg : (s.without r).Good σ) (hb : BoundOnce s.registers) (hi : σ.Fits i)
    (hd : ∀ d, i = .definition d → ∀ b ∈ s.registers, b.1 ≠ r → ∀ e, b.2 = .definition e → d.id ≠ e.id) :
    (s.put r i).Good σ where
  __ := hg
  registers b hb' := by
    rcases (mem_assign hb).mp hb' with rfl | hb'
    · exact hi
    · exact hg.registers b (mem_unassign.mpr hb')
  boundOnce := hb.assign
  ownedOnce b hb' c hc d e hbd hce he := by
    rcases (mem_assign hb).mp hb' with rfl | hb' <;> rcases (mem_assign hb).mp hc with rfl | hc
    · rfl
    · exact absurd he (hd d hbd c hc.1 hc.2 e hce)
    · exact absurd he.symm (hd e hce b hb'.1 hb'.2 d hbd)
    · exact hg.ownedOnce b (mem_unassign.mpr hb') c (mem_unassign.mpr hc) d e hbd hce he

lemma put_item {r : String} {i : Item} (hg : s.Good σ) (hi : σ.Fits i) (hd : ∀ d, i ≠ .definition d) :
    (s.put r i).Good σ :=
  (hg.without r).put hg.boundOnce hi fun d h => absurd h (hd d)

theorem freeze {i : Item} (hg : s.Good σ) (hi : σ.Fits i) :
    ({ s with frozen := i.mark s.frozen } : Session).Good σ := by
  have marked := i.marked hereditary_isModel s.frozen hi hg.closed
  refine { hg with frozen := fun id hid => ?_, closed := marked.closed }
  rcases marked.sound id hid with hid | hl
  · exact hg.frozen id hid
  · obtain ⟨j, -, -, hj⟩ := hi.object_of_labels hl
    exact hg.object id j hj

end Good

end Session

end CodeModel
