import CodeModel.Proofs.Session.TwinPools

namespace CodeModel.Session

open Builder

variable {d : Seeding} {s t : Session} {σ τ : Store}

def Abreast (d : Seeding) (s t : Session) : Prop := Twin d { s with events := [] } { t with events := [] }

lemma Twin.abreast (h : s.Twin d t) : Abreast d s t := { h with events := rfl }

theorem run_pairs (hg : s.Good σ) (ht : t.Good τ) (hst : s.Twin d t) {st : Step} (hr : ¬ st.Reveals d.name) :
    Builder.Pairs d (Answer.Alike (s.onText st)) (run st) (run st) s t := by
  have steady {act : Running} (h : Builder.Alike d (· = ·) act act) :
      Builder.Pairs d (Answer.Alike (s.onText st)) act act s t := (h s t hst).imp fun _ _ h => h ▸ rfl
  cases st with
  | bind target value => exact steady (bind_alike target value)
  | drop rs => exact steady (drop_alike rs)
  | dropProvider p => exact steady (dropProvider_alike p)
  | newPool target => exact steady (newPool_alike target)
  | newProvider target options => exact newProvider_alike target options s t hst
  | set r c => exact steady (change_alike r c fun _ _ _ => rfl)
  | edit r c => exact steady (edit_alike r c)
  | get r path target => exact steady (get_alike r path target)
  | same a b => exact same_pairs a b hst
  | equals a b => exact equals_pairs hg ht hst a b
  | copyUnfrozen r target => exact steady (copyUnfrozen_alike r target)
  | freeze r => exact steady (freeze_alike r)
  | isFrozen r => exact steady (isFrozen_alike r)
  | display r => exact steady (display_alike r)
  | inspect r => exact steady (inspect_alike r)
  | findMethods r name => exact steady (findMethods_alike r name)
  | walk r => exact steady (walk_alike r)
  | sharedTypes p => exact sharedTypes_pairs hg ht hst p
  | stats p => exact stats_alike p s t hst
  | intern p r => exact intern_pairs hg ht hst p r
  | internOptional p r => exact internOptional_pairs hg ht hst p r
  | internObject p source target => exact internObject_pairs hg ht hst p source target
  | prepare p r => exact prepare_pairs hg ht hst p r
  | internString p v target => exact internString_alike p v target s t hst
  | canonical p r => exact canonical_pairs hg ht hst p r
  | pool name action target => exact pool_pairs hg ht hst name action target hr
  | dump p => exact dump_alike p s t hst

theorem step_twins (hg : s.Good σ) (ht : t.Good τ) (hst : Abreast d s t) {st : Step} (hr : ¬ st.Reveals d.name) :
    ((step s st).1.Alike (s.onText st) (step t st).1 ∧ (step s st).2.1 = (step t st).2.1) ∧
      Abreast d (step s st).2.2 (step t st).2.2 := by
  have about : ({ s with events := [] } : Session).onText st = s.onText st := by cases st <;> rfl
  rcases rel_cases (run_pairs (hg.withEvents []) (ht.withEvents []) hst hr) with
    ⟨hn, hn'⟩ | ⟨⟨a, u⟩, ⟨b, v⟩, hu, hv, hab, huv⟩
  · simp only [step, hn, hn', and_true]
    exact ⟨rfl, hst⟩
  · simp only [step, hu, hv]
    exact ⟨⟨about ▸ hab, huv.events⟩, huv.abreast⟩

theorem after_twins (hg : s.Good σ) (ht : t.Good τ) (hst : Abreast d s t) {more : List Step}
    (hr : ∀ st ∈ more, ¬ st.Reveals d.name) : Abreast d (s.after more) (t.after more) := by
  induction more generalizing s t σ τ with
  | nil => exact hst
  | cons st more ih =>
    simp only [List.mem_cons, forall_eq_or_imp] at hr
    obtain ⟨_, good, -⟩ := step_reaches hg st
    obtain ⟨_, good', -⟩ := step_reaches ht st
    exact ih good good' (step_twins hg ht hst hr.1).2 hr.2

lemma seeded_abreast (hg : s.Good σ) (name : String) {o o' : Options} (ho : o.preInternCommon = true)
    (ho' : o'.preInternCommon = false) :
    Abreast ⟨name, s.nextProvider, s.nextText⟩ (s.addProvider name o) (s.addProvider name o') where
  hasher := rfl
  registers := List.forall₂_same.mpr fun _ _ => ⟨rfl, .refl _⟩
  providers := by
    have old (b : String × Provider) (hb : b ∈ s.providers) : b.2.number ≠ s.nextProvider := (hg.numbered b hb).ne
    exact rel_assign (List.forall₂_same.mpr fun b hb => ⟨rfl, .refl (old b hb)⟩) name
      (Provider.create_twin _ (.inl ⟨ho, ho', rfl, rfl⟩))
  pools := List.forall₂_same.mpr fun _ _ => ⟨rfl, Spellings.Twin.refl _ not_false⟩
  frozen := rfl
  nextObject := rfl
  nextText := rfl
  nextProvider := rfl
  events := rfl
  given := Nat.lt_succ_self _
  named b hb hn := by
    rcases mem_of_mem_assign hb with rfl | hb
    · rfl
    · exact absurd hn (hg.numbered b hb).ne

lemma stats_of_twins {h : Hasher} {q q' : Provider} (hq : q.Sound h) (hq' : q'.Sound h) (twins : q.Twin h d q') :
    q.stats = { q'.stats with
      strings := q'.stats.strings + if q.number = d.number then (q'.pool.missing h).card else 0 } := by
  have size := TextPool.Twin.size twins.pool hq.filed hq'.filed
  simp only [Provider.stats, twins.entityCount, twins.listCount, twins.hits, twins.misses, size]
  congr

/-- A session whose provider was seeded goes on as without that, but for handles of texts and the number of strings. -/
theorem seeding_transparent (hasher : Hasher) (before more : List Step) (name : String) (o o' : Options)
    (ho : o.preInternCommon = true) (ho' : o'.preInternCommon = false) (hr : ∀ st ∈ more, ¬ st.Reveals name) :
    let u := (initial hasher).after before
    let d : Seeding := ⟨name, u.nextProvider, u.nextText⟩
    let s := (u.addProvider name o).after more
    let t := (u.addProvider name o').after more
    (∀ st, ¬ st.Reveals name → (step s st).1.Alike (s.onText st) (step t st).1 ∧ (step s st).2.1 = (step t st).2.1) ∧
      s.frozen = t.frozen ∧
      List.Forall₂ (BindsTwins fun i j => i.Twin d j ∧ i.bare = j.bare) s.registers t.registers ∧
      List.Forall₂ (BindsTwins fun q q' => q.Twin hasher d q' ∧ q.stats = { q'.stats with
        strings := q'.stats.strings + if q.number = d.number then (q'.pool.missing hasher).card else 0 })
        s.providers t.providers := by
  intro u d s t
  obtain ⟨σ, good, later⟩ := after_reaches (initial_good hasher) before
  obtain ⟨_, goodS, laterS⟩ := (addProvider_reaches good name o).trans fun _ hg => after_reaches hg more
  obtain ⟨_, goodT, laterT⟩ := (addProvider_reaches good name o').trans fun _ hg => after_reaches hg more
  obtain ⟨_, madeS, -⟩ := addProvider_reaches good name o
  obtain ⟨_, madeT, -⟩ := addProvider_reaches good name o'
  have twins : Abreast d s t := after_twins madeS madeT (seeded_abreast good name ho ho') hr
  have hash : s.hasher = hasher := laterS.hasher.trans later.hasher
  have hash' : t.hasher = hasher := laterT.hasher.trans later.hasher
  refine ⟨fun st hst => (step_twins goodS goodT twins hst).1, twins.frozen,
    twins.registers.imp fun b c h => ⟨h.1, h.2, h.2.value⟩, forall₂_of_mem twins.providers fun b hb c hc h => ?_⟩
  have sound : b.2.Sound hasher := hash ▸ goodS.sound b hb
  have sound' : c.2.Sound hasher := hash' ▸ goodT.sound c hc
  have tables : b.2.Twin hasher d c.2 := hash ▸ h.2
  exact ⟨h.1, tables, stats_of_twins sound sound' tables⟩

theorem seeding_transparent_namespace :
    let more := [.bind "a" (.entity .typeRef (.named "System" "T" [])), .intern "P" "a"]
    let s := ((initial .colliding).addProvider "P" ⟨true, 1024⟩).after more
    let t := ((initial .colliding).addProvider "P" ⟨false, 0⟩).after more
    ∃ i q q', s.register? "a" = some i ∧ i.bare = .entity .typeRef ⟨0, .named ⟨0, "System"⟩ ⟨0, "T"⟩ ⟨false, 0, []⟩⟩ ∧
      s.providers.lookup "P" = some q ∧ t.providers.lookup "P" = some q' ∧
      q.stats = { q'.stats with strings := q'.stats.strings + 93 } := by
  intro more s t
  have unrevealed : ∀ st ∈ more, ¬ st.Reveals "P" := by simp [more, Step.Reveals]
  obtain ⟨-, -, registers, providers⟩ :=
    seeding_transparent .colliding [] more "P" ⟨true, 1024⟩ ⟨false, 0⟩ rfl rfl unrevealed
  have made : t.register? "a" = some (.entity .typeRef ⟨4, .named ⟨95, "System"⟩ ⟨96, "T"⟩ ⟨false, 3, []⟩⟩) := rfl
  have seeded : (s.providers.lookup "P").map Provider.number = some 0 := by decide +kernel
  have missing : (t.providers.lookup "P").map (fun q => (q.pool.missing .colliding).card) = some 93 := by decide +kernel
  have registered : Option.Rel _ (s.register? "a") (t.register? "a") := rel_lookup registers "a"
  have provided : Option.Rel _ (s.providers.lookup "P") (t.providers.lookup "P") := rel_lookup providers "P"
  rcases rel_cases registered with ⟨-, hn⟩ | ⟨i, j, hi, hj, -, value⟩
  · cases made.symm.trans hn
  rcases rel_cases provided with ⟨hn, -⟩ | ⟨q, q', hq, hq', -, stats⟩
  · simp [hn] at seeded
  · rw [hq, Option.map_some, Option.some.injEq] at seeded
    rw [hq', Option.map_some, Option.some.injEq] at missing
    obtain rfl := Option.some.inj (made.symm.trans hj)
    refine ⟨i, q, q', hi, value.trans rfl, hq, hq', ?_⟩
    rw [stats, missing, if_pos]
    exact seeded

end CodeModel.Session
