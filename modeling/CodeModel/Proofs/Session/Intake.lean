import CodeModel.Proofs.Interning.Tally
import CodeModel.Proofs.Session.Interning

namespace CodeModel

def Answer.verdict? : Answer → Option (Option ModelError × Stats)
  | interned e _ _ z => some (e, z)
  | internedNothing z => some (none, z)
  | made _ z => some (none, z)
  | notMade e z => some (some e, z)
  | _ => none

namespace Session

variable {σ τ : Store} {s t u : Session} {p r : String} {q : Provider} {i j : Item} {w : Work} {a : Answer}

lemma step_of_run {st : Step} (h : (run st).run { s with events := [] } = some (a, t)) :
    (step s st).1 = a ∧ (step s st).2.2 = t := by
  simp [step, h]

structure Intake (s : Session) (q : Provider) (i j : Item) (w : Work) : Prop where
  means : i.Means j
  grows : q.Grows s.hasher w.provider
  sound : w.provider.Sound s.hasher
  canonical : w.failure = none → ((∀ d, i ≠ .definition d) → w.provider.Canonical s.hasher j) ∧
    ∀ l ∈ j.parts, w.provider.Canonical s.hasher l
  tallies : i.IsModel → Tallies q.Settled (·.FrozenIn s.frozen) [i] ⟨q.stock s.hasher, q.stats, none⟩
    (w.inventory s.hasher)

theorem intake_of_run {keep : Nat → Prop} {held : Held} (hw : (s.work q).Good s.hasher σ) (hi : σ.Fits i)
    (hheld : ∀ id, keep id → held id = true) (hd : ∀ d, i = .definition d → ¬ keep d.id) :
    Intake s q i ((i.intern s.setting held).run (s.work q)).1 ((i.intern s.setting held).run (s.work q)).2 := by
  obtain ⟨τ, hr, -, hc⟩ : Becomes s.setting keep σ (s.work q) i _ _ _ := i.intern_becomes held hw hi hheld hd
  refine ⟨(List.forall₂_cons.mp hr.value).1, hr.grows, hr.good.sound, hc, fun hm => ?_⟩
  exact Item.intern_tallies (s := s.setting) i held hm hw hi hheld rfl

lemma Taken.intake (h : Taken σ s i τ u) (hq : u.providers.lookup p = some q) (hd : ∀ d, i ≠ .definition d) :
    Intake u q i ((i.intern u.setting (u.heldBeside none (some p))).run (u.work q)).1
      ((i.intern u.setting (u.heldBeside none (some p))).run (u.work q)).2 :=
  intake_of_run (h.good.work hq) h.fits (fun id => (h.good.heldBeside_iff (some p) id).mpr) fun d he =>
    absurd he (hd d)

structure Receives (s : Session) (p : String) (q : Provider) (i : Item) (r : String) (a : Answer) (t : Session)
    (j : Item) (w : Work) : Prop where
  intake : Intake s q i j w
  verdict : a.verdict? = some (w.failure, w.provider.stats)
  provider : t.providers.lookup p = some w.provider
  result : w.failure = none → t.register? r = some j

end Session

end CodeModel
