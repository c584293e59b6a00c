import CodeModel.Proofs.Interning.Lookups
import CodeModel.Proofs.Session.Calls
import CodeModel.Proofs.Session.History

namespace CodeModel.Session

variable {u : Session} {p r : String} {q : Provider} {st : Step} {i : Item} {h : Hasher}

/-- The values of a sort that interning looks up in item `i` and that provider `q` does not have. -/
def missing (h : Hasher) (q : Provider) (i : Item) (sort : Item → Prop) : Set Item :=
  {v | sort v ∧ (∃ a ∈ i.lookups q.Settled, a.bare = v) ∧ ∀ c, q.Canonical h c → c.bare ≠ v}

lemma mem_missing {sort : Item → Prop} {v : Item} :
    v ∈ missing h q i sort ↔ sort v ∧ v ∉ q.stock h ∧ ∃ a ∈ i.lookups q.Settled, a.bare = v := by
  refine and_congr_right fun _ => and_comm.trans (and_congr_left fun _ => ?_)
  simp only [Provider.stock, Set.mem_ofPred_eq, not_exists, not_and, ne_eq]

lemma isList_iff {v : Item} (h : ∃ a ∈ i.lookups q.Settled, a.bare = v) : v.IsList ↔ v.IsFullList := by
  obtain ⟨a, ha, rfl⟩ := h
  have looked := (Item.mem_lookups.mp ha).2
  cases a with
  | list k l => exact iff_of_true trivial ((Item.isFullList_bare _).mpr (looked.resolve_left id))
  | _ => exact .rfl

lemma full_of_unsettled {l : Item} (hl : l.IsList) (hs : ¬ q.Settled l) : l.IsFullList := by
  cases l with
  | list k l => exact fun hn => hs (.inl hn)
  | _ => exact hl.elim

/-- Look-ups are counted once for each way that leads to an unsettled item, and misses once for each new value. -/
theorem lookups_counted (hasher : Hasher) (options : Options) (steps : List Step)
    (hq : ((start hasher options).after steps).providers.lookup p = some q)
    (h : Calls ((start hasher options).after steps) p st r i u) (hst : st.isCall = true) (hm : i.IsModel) {n : Stats}
    (ok : (step ((start hasher options).after steps) st).1.verdict? = some (none, n)) :
    ((step ((start hasher options).after steps) st).2.2.providers.lookup p).map Provider.stats = some n ∧
      n.hits + n.misses = q.stats.hits + q.stats.misses + (i.lookups q.Settled).length ∧
      (n.misses : ℕ∞) = q.stats.misses + (missing hasher q i Item.IsEntity).encard +
        (missing hasher q i Item.IsFullList).encard := by
  obtain ⟨σ₀, good, hash⟩ := start_good hasher options steps
  obtain ⟨σ, τ, v, j, settles⟩ := h.settles good hq
  obtain rfl : u.hasher = hasher := settles.aside.hasher.trans hash
  have call := settles.receives hq hst
  have tallies := call.intake.tallies hm
  have sound : q.Sound u.hasher := (settles.work hq).sound
  obtain ⟨calm, rfl⟩ := settles.outcome ok
  have misses := tallies.misses calm (fun i hi => sound.values_subset hi.canonical) fun l => full_of_unsettled
  have lookups := tallies.lookups calm fun l => full_of_unsettled
  refine ⟨by rw [call.provider]; rfl, by simpa [Work.inventory] using lookups, misses.trans ?_⟩
  congr 3
  · ext v
    exact mem_missing.symm
  · ext v
    refine .trans ?_ mem_missing.symm
    exact and_congr_left fun looked => isList_iff looked.2

theorem lookups_counted_list :
    let s := (start .colliding ⟨false, 0⟩).after [.bind "e" (.entity .typeRef (.named "N" "E" [])),
      .bind "l" (.list .typeRef [.register "e", .register "e", .named "N" "E" []])]
    ∃ i q n, s.register? "l" = some i ∧ s.providers.lookup "P" = some q ∧
      (step s (.intern "P" "l")).1.verdict? = some (none, n) ∧
      (i.lookups q.Settled).length = 4 ∧
      (missing .colliding q i Item.IsEntity).encard + (missing .colliding q i Item.IsFullList).encard = 2 := by
  intro s
  have bound : (s.providers.lookup "P").any (fun q => q.stats.hits == 0 && q.stats.misses == 0) = true := by
    decide +kernel
  obtain ⟨q, hq, before⟩ := (Option.any_eq_true ..).mp bound
  simp only [Bool.and_eq_true, beq_iff_eq] at before
  obtain ⟨i, hi, model⟩ : ∃ i, s.register? "l" = some i ∧ i.IsModel := ⟨_, rfl, rfl⟩
  have verdict : (step s (.intern "P" "l")).1.verdict?.any
      (fun v => v.1.isNone && v.2.hits == 2 && v.2.misses == 2) = true := by decide +kernel
  obtain ⟨⟨e, n⟩, answer, counts⟩ := (Option.any_eq_true ..).mp verdict
  simp only [Bool.and_eq_true, Option.isNone_iff_eq_none, beq_iff_eq] at counts
  obtain ⟨⟨rfl, hits⟩, misses⟩ := counts
  obtain ⟨-, lookups, missed⟩ := lookups_counted .colliding ⟨false, 0⟩ _ hq (.intern hi) rfl model answer
  rw [hits, misses, before.1, before.2] at lookups
  rw [misses, before.2] at missed
  exact ⟨i, q, n, hi, hq, answer, by omega, by simpa [add_assoc] using missed.symm⟩

end CodeModel.Session
