import CodeModel.Proofs.Session.Calls

namespace CodeModel.Session

variable {σ : Store} {s u : Session} {p r : String} {q : Provider} {st : Step} {i : Item} {hasher : Hasher}

lemma Calls.verdict (hg : s.Good σ) (hq : s.providers.lookup p = some q) (h : Calls s p st r i u)
    (hst : st.isCall = true) (hm : i.IsModel) :
    ∃ n, (step s st).1.verdict? = some (obstacle (q.Canonical hasher) (·.FrozenIn u.frozen) [i], n) := by
  obtain ⟨σ, τ, v, j, settles⟩ := h.settles hg hq
  have call := settles.receives hq hst
  have sound : q.Sound u.hasher := (settles.work hq).sound
  have failure : v.failure = none.or (obstacle q.Settled (·.FrozenIn u.frozen) [i]) :=
    (call.intake.tallies hm).failure fun _ hi _ => sound.settled_within hi
  rw [Option.none_or, obstacle_congr fun a hz => ⟨fun ha => ha.canonical, fun ha => .of_canonical ha hz⟩] at failure
  exact ⟨_, failure ▸ call.verdict⟩

/-- A call succeeds just if everything frozen within its item is canonical in the provider. If it fails, the error
is that of the first item, in the order of preparation, that is frozen and not canonical. -/
theorem failure_exact (hasher : Hasher) (options : Options) (steps : List Step)
    (hq : ((start hasher options).after steps).providers.lookup p = some q)
    (h : Calls ((start hasher options).after steps) p st r i u) (hst : st.isCall = true) (hm : i.IsModel) :
    ∃ e n, (step ((start hasher options).after steps) st).1.verdict? = some (e, n) ∧
      (e = none ↔ ∀ a, Item.Within a i → a.FrozenIn u.frozen → q.Canonical hasher a) ∧
      ∀ error, e = some error ↔ ∃ before a after, i.preorder = before ++ a :: after ∧
        (∀ b ∈ before, b.FrozenIn u.frozen → q.Canonical hasher b) ∧ a.FrozenIn u.frozen ∧ ¬ q.Canonical hasher a ∧
        error = .preparedAfterFreeze a.kindName := by
  obtain ⟨σ, good, -⟩ := start_good hasher options steps
  obtain ⟨n, verdict⟩ := h.verdict good hq hst hm
  exact ⟨_, n, verdict, obstacle_eq_none_iff, fun _ => obstacle_eq_some_iff⟩

theorem failure_exact_attribute :
    let s := (start .colliding ⟨false, 0⟩).after [.bind "t" (.entity .typeRef (.named "N" "T" [])),
      .bind "c" (.entity .constant (.make (.register "t") (.plain .null))), .freeze "c",
      .bind "a" (.entity .attr (.make (.register "t") [.register "c"] [] ⟨none, ⟨0, 0⟩, ⟨0, 0⟩⟩))]
    ∃ n i before a after,
      (step s (.intern "P" "a")).1.verdict? = some (some (.preparedAfterFreeze "type reference"), n) ∧
        s.register? "a" = some i ∧ i.preorder = before ++ a :: after ∧ a.FrozenIn s.frozen ∧
        a.kindName = "type reference" := by
  intro s
  have bound : (s.providers.lookup "P").isSome = true := by decide +kernel
  obtain ⟨q, hq⟩ := Option.isSome_iff_exists.mp bound
  obtain ⟨i, hi, model⟩ : ∃ i, s.register? "a" = some i ∧ i.IsModel := ⟨_, rfl, rfl⟩
  have fails : ∃ n, (step s (.intern "P" "a")).1.verdict? = some (some (.preparedAfterFreeze "type reference"), n) :=
    ⟨_, rfl⟩
  obtain ⟨n, hn⟩ := fails
  obtain ⟨e, n', verdict, -, first⟩ := failure_exact .colliding ⟨false, 0⟩ _ hq (.intern hi) rfl model
  obtain ⟨rfl, -⟩ := Prod.mk.inj (Option.some.inj (hn.symm.trans verdict))
  obtain ⟨before, a, after, split, -, frozen, -, name⟩ := (first _).mp rfl
  exact ⟨n, i, before, a, after, hn, hi, split, frozen, by simpa using name.symm⟩

end CodeModel.Session
