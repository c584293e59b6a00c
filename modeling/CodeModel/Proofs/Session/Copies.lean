import CodeModel.Proofs.Session.Meaning
import CodeModel.Proofs.Session.Protocol

namespace CodeModel

lemma unassign_assign {α : Type} (name : String) (a : α) (bs : List (String × α)) :
    unassign name (assign name a bs) = unassign name bs := by
  induction bs with
  | nil => simp [assign, unassign]
  | cons b bs ih =>
    obtain ⟨n, c⟩ := b
    by_cases hn : n = name
    · simp [assign, unassign, hn]
    · simpa [assign, unassign, hn] using ih

namespace Session

variable {σ : Store} {s : Session} {p r c d : String} {q : Provider} {k : Kind} {x : Handle k.Carrier}

def spent (s : Session) : Session := { s with events := [], nextObject := s.nextObject + 3 }

structure Copied (s : Session) (k : Kind) (x y : Handle k.Carrier) : Prop where
  unfrozen : y.id ∉ s.frozen
  unheld : ¬ s.Keeps none y.id
  outline : k.outline y.val = k.outline x.val
  parts : List.Forall₂ (Item.Copies s.nextObject) (k.parts x.val) (k.parts y.val)
  value : (Item.entity k x).SameValue (.entity k y)

def copyOf (s : Session) (k : Kind) (x : Handle k.Carrier) : Handle k.Carrier :=
  ⟨s.nextObject + 2, k.copy s.nextObject x.val⟩

theorem Good.copied (hg : s.Good σ) (x : Handle k.Carrier) : Copied s k x (s.copyOf k x) where
  unfrozen hz := absurd (hg.frozen _ hz) (by simp [copyOf])
  unheld hk := by
    obtain ⟨i, hi⟩ := hg.object_of_keeps hk
    exact absurd (hg.object _ _ hi) (by simp [copyOf])
  outline := k.copy_outline _ _
  parts := k.copy_parts _ _
  value := Item.sameValue_of_bare (by simp [Item.bare, Handle.bare, copyOf, k.copy_bare])

lemma without_put (s : Session) (r : String) (i : Item) : (s.put r i).without r = s.without r := by
  simp [Session.without, Session.put, unassign_assign]

lemma copy_step (hx : s.register? r = some (.entity k x)) (c : String) :
    step s (.copyUnfrozen r c) = (.ok, [], s.spent.put c (.entity k (s.copyOf k x))) := by
  rw [step, copyUnfrozen_run hx]
  rfl

lemma internObject_run {u : Session} {source : ItemSource} {y : Handle k.Carrier} {w : Work}
    (taken : source.take.run s = some (.entity k x, u)) (hq : u.providers.lookup p = some q)
    (hs : u.heldBeside none none x.id = false)
    (interned : (k.intern u.setting (u.heldBeside none (some p)) x).run (u.work q) = (y, w)) (hf : w.failure = none)
    (d : String) : (internObject p source d).run s =
      some (.made (k.display? y.val) w.provider.stats, (u.settled p w).put d (.entity k y)) := by
  simp [internObject, taken, hs, interning_run hq, interned, hf, assignItem, statsOf_put]

theorem Good.copy_interned (hg : s.Good σ) (filed : s.Filed) (hq : s.providers.lookup p = some q)
    (hx : s.register? r = some (.entity k x)) (entry : q.HasEntry k x) (c d : String) :
    step (step s (.copyUnfrozen r c)).2.2 (.internObject p (.register c) d) =
      (.made (k.display? x.val) q.hit.stats, [.reused q.number k],
        { s.spent.without c with
          providers := assign p q.hit s.providers, events := [.reused q.number k] }.put d (.entity k x)) := by
  obtain ⟨τ, good, -⟩ := step_reaches hg (.copyUnfrozen r c)
  rw [copy_step hx] at good ⊢
  have copied := hg.copied x
  have fits : τ.Fits (.entity k (s.copyOf k x)) := good.fits_register lookup_assign_self
  have rest : (s.spent.without c).Good τ := without_put s.spent c _ ▸ good.without c
  have unregistered : ¬ q.Registered (s.copyOf k x).id := fun hr =>
    copied.unheld (.inr (.inr ⟨_, mem_of_lookup hq, by simp, hr⟩))
  have unheld : (s.spent.without c).heldBeside none none (s.copyOf k x).id = false := by
    rw [Bool.eq_false_iff, Ne, rest.heldBeside_iff]
    rintro (⟨b, hb, hl⟩ | h)
    · exact copied.unheld (.inl ⟨b, (mem_unassign.mp hb).1, hl⟩)
    · exact copied.unheld (.inr h)
  have beside := (heldBeside_unregistered rest hq unregistered).trans unheld
  have interned := Kind.intern_copy (s := (s.spent.without c).setting) (rest.work hq)
    (filed.provider (mem_of_lookup hq)) rfl entry fits unregistered copied.unfrozen beside
  have taken := take_run (s := s.spent.put c (.entity k (s.copyOf k x))) (r := c) lookup_assign_self
  rw [without_put] at taken
  have ran := internObject_run taken hq unheld interned rfl d
  rw [step, run, show ({ s.spent.put c (.entity k (s.copyOf k x)) with events := [] } : Session) =
    s.spent.put c (.entity k (s.copyOf k x)) from rfl, ran]
  rfl

/-- To copy an entity unfrozen changes nothing else, and interning the copy gives back the canonical original. -/
theorem copies_intern_back (hasher : Hasher) (options : Options) (steps : List Step)
    (hx : ((start hasher options).after steps).register? r = some (.entity k x)) (c : String) :
    let s := (start hasher options).after steps
    ∃ y, Copied s k x y ∧ step s (.copyUnfrozen r c) = (.ok, [], s.spent.put c (.entity k y)) ∧
      ∀ p q held d, s.providers.lookup p = some q → q.isCanonical hasher held k x = true →
        step (s.spent.put c (.entity k y)) (.internObject p (.register c) d) =
          (.made (k.display? x.val) { q.stats with hits := q.hits + 1 }, [.reused q.number k],
            { s.spent.without c with
              providers := assign p { q with hits := q.hits + 1 } s.providers
              events := [.reused q.number k] }.put d (.entity k x)) := by
  intro s
  obtain ⟨σ, good, hash⟩ : ∃ σ, s.Good σ ∧ s.hasher = hasher := start_good hasher options steps
  have filed : s.Filed := start_filed hasher options steps
  refine ⟨s.copyOf k x, good.copied x, copy_step hx c, fun p q held d hq canonical => ?_⟩
  rw [← hash] at canonical
  have entry : q.HasEntry k x :=
    Provider.entry_of_isCanonical (good.work hq).fits (good.fits_register hx) canonical
  have interned := good.copy_interned filed hq hx entry c d
  rw [copy_step hx] at interned
  exact interned

theorem copies_intern_back_frozen :
    let s := (start .colliding ⟨false, 0⟩).after
      [.bind "a" (.entity .typeRef (.named "N" "T" [.shared .dynamic])), .intern "P" "a", .freeze "a"]
    let x : Handle TypeRef := ⟨4, .named ⟨95, "N"⟩ ⟨96, "T"⟩ ⟨true, 5, [⟨2, .dynamic⟩]⟩⟩
    s.register? "a" = some (.entity .typeRef x) ∧ x.id ∈ s.frozen ∧
      (step (step s (.copyUnfrozen "a" "c")).2.2 (.internObject "P" (.register "c") "d")).2.2.register? "d" =
        some (.entity .typeRef x) := by
  intro s x
  have hx : s.register? "a" = some (.entity .typeRef x) := by
    dsimp only [s, x]
    rfl
  have known : (s.providers.lookup "P").any (fun q => q.isCanonical .colliding Held.nothing .typeRef x) = true := by
    decide +kernel
  obtain ⟨q, hq, canonical⟩ := (Option.any_eq_true ..).mp known
  obtain ⟨y, -, copies, interns⟩ := copies_intern_back .colliding ⟨false, 0⟩ _ hx "c"
  refine ⟨hx, by decide +kernel, ?_⟩
  rw [copies, interns "P" q Held.nothing "d" hq canonical]
  rfl

end Session

end CodeModel
