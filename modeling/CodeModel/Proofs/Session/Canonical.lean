import CodeModel.Proofs.Interning.Yield
import CodeModel.Proofs.Session.Sealing
import CodeModel.Proofs.Session.Stability

/-! The canonical tests look into one bucket only, and answer what the whole tables hold. -/

namespace CodeModel

variable {σ : Store} {h : Hasher} {q : Provider} {k : Kind} {x : Handle k.Carrier} {l : EntityList k.Carrier}

namespace Provider

def Recorded (q : Provider) (storage : Nat) : Prop := ∃ k, ∃ r ∈ q.lists k, r.storage = storage

lemma Sound.isCanonical_iff_registered (hq : q.Sound h) (hf : q.Fits h σ) (hx : σ.Fits (.entity k x)) (held : Held) :
    q.isCanonical h held k x = true ↔ q.Registered x.id := by
  rw [registered_iff hf hx]
  exact ⟨entry_of_isCanonical hf hx, hq.isCanonical held⟩

lemma Sound.isCanonicalList_iff_recorded (hq : q.Sound h) (hf : q.Fits h σ) (hl : σ.Fits (.list k l))
    (full : (Item.list k l).Full) : q.isCanonicalList h k l = true ↔ ∃ n ∈ l.identity, q.Recorded n := by
  constructor
  · intro hc
    have sealed : l.sealed = true := (Bool.and_eq_true_iff.mp hc).1
    rcases canonical_of_isCanonicalList hq hf hl hc with hn | ⟨r, hr, rfl⟩
    · exact absurd hn ((Item.full_list.mp full).1 sealed)
    · have hn := hq.recordFull k r hr
      exact ⟨r.storage, by simp [EntityList.identity, Record.list, hn], k, r, hr, rfl⟩
  · rintro ⟨n, hn, j, r, hr, rfl⟩
    obtain ⟨nonempty, storage⟩ : l.items ≠ [] ∧ l.storage = r.storage := by simpa [EntityList.identity] using hn
    -- the store knows the kind of what is stored there, so the record is one of lists of kind `k`
    have recorded := (hf _ (.record hr)).knows (hq.recordFull j r hr)
    have known := hl.knows nonempty
    rw [storage, show r.storage = r.list.storage from rfl, recorded] at known
    obtain rfl : j = k := by simpa using congrArg (Option.map Prod.fst) known
    rw [← Store.list_eq (hf _ (.record hr)) hl (hq.recordFull j r hr) nonempty storage.symm]
    exact hq.isCanonicalList hr

end Provider

namespace Session

open Builder

variable {s : Session} {p r : String}

/-- What the canonical tests of the provider named `p` report of what is alive, and what a caller is told. An empty list
has no storage. -/
structure Reports (s : Session) (p : String) (q : Provider) : Prop where
  entity : ∀ k x, s.Holds (.entity k x) → ∀ held, q.isCanonical s.hasher held k x = true ↔ q.Registered x.id
  list : ∀ k l, s.Holds (.list k l) → (q.isCanonicalList s.hasher k l = true ↔ ∃ n ∈ l.identity, q.Recorded n)
  entityAnswer : ∀ r k x, s.register? r = some (.entity k x) →
    ∃ b, (step s (.canonical p r)).1 = .canonical b (q.canonicalCount s.hasher k x.val) ∧ (b = true ↔ q.Registered x.id)
  listAnswer : ∀ r k l, s.register? r = some (.list k l) →
    ∃ b, (step s (.canonical p r)).1 = .canonicalList b l.sealed ∧ (b = true ↔ ∃ n ∈ l.identity, q.Recorded n)

lemma Full.holds {i : Item} (hs : s.Full) (hi : s.Holds i) : i.Full := by
  cases hi with
  | register hb hi => exact (hs.register _ hb).within hi
  | provider hb root hi =>
    have held := hs.provider _ hb
    cases root with
    | entry hx => exact (held.entry _ _ hx).within hi
    | record hr => exact (held.record _ _ hr).within hi
    | text ht => exact (Item.full_text _).within hi
  | pool hb ht => exact Item.full_text _
  | shared t => exact Item.full_shared t

lemma canonical_entity (hq : s.providers.lookup p = some q) (hr : s.register? r = some (.entity k x)) :
    (step s (.canonical p r)).1 =
      .canonical (q.isCanonical s.hasher (s.heldBeside (some r) none) k x) (q.canonicalCount s.hasher k x.val) := by
  have beside : ({ s with events := [] } : Session).heldBeside (some r) none = s.heldBeside (some r) none := rfl
  simp [step, run, canonical, provider_run_cleared hq, register_run_cleared hr, beside]

lemma canonical_list (hq : s.providers.lookup p = some q) (hr : s.register? r = some (.list k l)) :
    (step s (.canonical p r)).1 = .canonicalList (q.isCanonicalList s.hasher k l) l.sealed := by
  simp [step, run, canonical, provider_run_cleared hq, register_run_cleared hr]

theorem Good.reports (hg : s.Good σ) (hs : s.Full) (hq : s.providers.lookup p = some q) : Reports s p q := by
  have sound := hg.sound _ (mem_of_lookup hq)
  have fits := hg.providers _ (mem_of_lookup hq)
  have entity (k : Kind) (x : Handle k.Carrier) (hx : s.Holds (.entity k x)) (held : Held) :
      q.isCanonical s.hasher held k x = true ↔ q.Registered x.id :=
    sound.isCanonical_iff_registered fits (hg.fits_of_holds hx) held
  have list (k : Kind) (l : EntityList k.Carrier) (hl : s.Holds (.list k l)) :
      q.isCanonicalList s.hasher k l = true ↔ ∃ n ∈ l.identity, q.Recorded n :=
    sound.isCanonicalList_iff_recorded fits (hg.fits_of_holds hl) (hs.holds hl)
  exact {
    entity
    list
    entityAnswer r k x hr := ⟨_, canonical_entity hq hr, entity k x (holds_of_register? hr) _⟩
    listAnswer r k l hr := ⟨_, canonical_list hq hr, list k l (holds_of_register? hr)⟩ }

/-- In every session that steps lead to, the canonical tests of every provider answer for its whole tables. -/
theorem canonical_tests_exact (hasher : Hasher) (options : Options) (steps : List Step)
    (hq : ((start hasher options).after steps).providers.lookup p = some q) :
    Reports ((start hasher options).after steps) p q := by
  obtain ⟨σ, good, -⟩ := start_good hasher options steps
  obtain ⟨τ, initial, -⟩ := start_good hasher options []
  exact good.reports (after_full initial (start_full hasher options) steps) hq

theorem canonical_tests_exact_copy :
    let s := (start .colliding ⟨false, 0⟩).after [
      .bind "a" (.entity .typeRef (.named "N" "T" [])), .intern "P" "a", .copyUnfrozen "a" "b",
      .bind "l" (.list .typeRef [.register "a"]), .intern "P" "l", .bind "m" (.list .typeRef [.register "a"])]
    let v (storage : Nat) : TypeRef := .named ⟨95, "N"⟩ ⟨96, "T"⟩ ⟨false, storage, []⟩
    s.register? "a" = some (.entity .typeRef ⟨4, v 3⟩) ∧ s.register? "b" = some (.entity .typeRef ⟨7, v 5⟩) ∧
      s.register? "l" = some (.list .typeRef ⟨true, 9, [⟨4, v 3⟩]⟩) ∧
      s.register? "m" = some (.list .typeRef ⟨false, 10, [⟨4, v 3⟩]⟩) ∧
      (step s (.canonical "P" "b")).1 = .canonical false 1 ∧ (step s (.canonical "P" "m")).1 = .canonicalList false false ∧
      ∃ q, s.providers.lookup "P" = some q ∧ q.Registered 4 ∧ ¬ q.Registered 7 ∧ q.Recorded 9 ∧ ¬ q.Recorded 10 := by
  intro s v
  have first : s.register? "a" = some (.entity .typeRef ⟨4, v 3⟩) := rfl
  have second : s.register? "b" = some (.entity .typeRef ⟨7, v 5⟩) := rfl
  have third : s.register? "l" = some (.list .typeRef ⟨true, 9, [⟨4, v 3⟩]⟩) := rfl
  have fourth : s.register? "m" = some (.list .typeRef ⟨false, 10, [⟨4, v 3⟩]⟩) := rfl
  have bound : (s.providers.lookup "P").isSome = true := by decide +kernel
  obtain ⟨q, hq⟩ := Option.isSome_iff_exists.mp bound
  have reports : Reports s "P" q := canonical_tests_exact .colliding ⟨false, 0⟩ _ hq
  have registered {r : String} {x : Handle TypeRef} {b : Bool} (hr : s.register? r = some (.entity .typeRef x))
      (answer : (step s (.canonical "P" r)).1 = .canonical b 1) : b = true ↔ q.Registered x.id := by
    obtain ⟨c, answer', agrees⟩ := reports.entityAnswer r .typeRef x hr
    rw [answer, Answer.canonical.injEq] at answer'
    rwa [answer'.1]
  have recorded {r : String} {l : EntityList TypeRef} {b : Bool} (hr : s.register? r = some (.list .typeRef l))
      (answer : (step s (.canonical "P" r)).1 = .canonicalList b l.sealed) :
      b = true ↔ ∃ n ∈ l.identity, q.Recorded n := by
    obtain ⟨c, answer', agrees⟩ := reports.listAnswer r .typeRef l hr
    rw [answer, Answer.canonicalList.injEq] at answer'
    rwa [answer'.1]
  have copy : (step s (.canonical "P" "b")).1 = .canonical false 1 := rfl
  have list : (step s (.canonical "P" "m")).1 = .canonicalList false false := rfl
  refine ⟨first, second, third, fourth, copy, list, q, hq, (registered first rfl).mp rfl, ?_, ?_, ?_⟩
  · simpa using registered second copy
  · simpa [EntityList.identity] using recorded third (b := true) rfl
  · simpa [EntityList.identity] using recorded fourth list

end Session

end CodeModel
