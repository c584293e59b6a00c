import CodeModel.Proofs.Session.Bystanders

namespace CodeModel

namespace Provider

variable {p q : Provider}

structure Apart (p q : Provider) : Prop where
  entry : ∀ id, p.Registered id → q.Registered id → ∃ t : SharedType, t.handle.id = id
  record : ∀ k l, ∀ r ∈ p.lists k, ∀ s ∈ q.lists l, r.storage ≠ s.storage

lemma Apart.symm (hpq : p.Apart q) : q.Apart p where
  entry id hq hp := hpq.entry id hp hq
  record k l r hr s hs := (hpq.record l k s hs r hr).symm

lemma apart_create {h : Hasher} {number label : Nat} {options : Options} :
    (create h number label options).Apart q where
  entry := by
    rintro _ ⟨k, x, hx, rfl⟩ -
    obtain ⟨t, ht⟩ := hasEntry_create.mp hx
    exact ⟨t, by simpa [Item.label?] using (congrArg Item.label? ht).symm⟩
  record := by simp [lists_create]

end Provider

namespace Session

variable {σ : Store} {s t : Session} {p : String} {q q' : Provider} {es : List Event} {b : String × Provider}

def Apart (s : Session) : Prop := ∀ b ∈ s.providers, ∀ c ∈ s.providers, b.1 ≠ c.1 → b.2.Apart c.2

lemma Apart.assign (h : s.Apart) (hn : BoundOnce s.providers)
    (hq : ∀ b ∈ s.providers, b.1 ≠ p → q.Apart b.2) (ht : t.providers = assign p q s.providers) : t.Apart := by
  intro b hb c hc hbc
  rw [ht, mem_assign hn] at hb hc
  rcases hb with rfl | ⟨hb, hbp⟩ <;> rcases hc with rfl | ⟨hc, hcp⟩
  · exact absurd rfl hbc
  · exact hq c hc hcp
  · exact (hq b hb hbp).symm
  · exact h b hb c hc hbc

lemma Good.registered_lt (hg : s.Good σ) (hb : b ∈ s.providers) {id : Nat} (hid : b.2.Registered id) :
    id < s.nextObject := by
  obtain ⟨k, x, hx, rfl⟩ := hid
  exact hg.object _ _ (hg.providers b hb _ (.entry hx)).knows

lemma Good.recorded_lt (hg : s.Good σ) (hb : b ∈ s.providers) {k : Kind} {r : Record k.Carrier}
    (hr : r ∈ b.2.lists k) : r.storage < s.nextObject :=
  hg.list _ _ ((hg.providers b hb _ (.record hr)).knows ((hg.sound b hb).recordFull k r hr))

lemma Takes.apart (h : Takes s p q es q') (hg : s.Good σ) (hb : b ∈ s.providers) (hbp : b.1 ≠ p)
    (hq : q.Apart b.2) : q'.Apart b.2 where
  entry id hid hbid := by
    rcases h.registered id hid with hid | hn | hn
    · exact hq.entry id hid hbid
    · exact absurd (hg.registered_lt hb hbid) hn.not_gt
    · exact absurd hbid (hn b hb hbp)
  record k l r hr r' hr' := by
    rcases h.recorded k r hr with hr | hn
    · exact hq.record k l r hr r' hr'
    · exact ((hg.recorded_lt hb hr').trans_le hn).ne'

theorem Apart.step (h : s.Apart) (hg : s.Good σ) (st : Step) : (step s st).2.2.Apart := by
  rcases step_effect hg st with ⟨hp, -⟩ | ⟨hq, takes, hp, -⟩ | ⟨hp, -⟩ | ⟨hp, -⟩
  · intro b hb c hc
    rw [hp] at hb hc
    exact h b hb c hc
  · have bound := mem_of_lookup hq
    exact h.assign hg.namedOnce (fun b hb hbp => takes.apart hg hb hbp (h _ bound b hb hbp.symm)) hp
  · intro b hb c hc
    rw [hp, mem_unassign] at hb hc
    exact h b hb.1 c hc.1
  · exact h.assign hg.namedOnce (fun b _ _ => Provider.apart_create) hp

theorem Apart.after (h : s.Apart) (hg : s.Good σ) (steps : List Step) : (s.after steps).Apart := by
  induction steps generalizing s σ with
  | nil => exact h
  | cons st steps ih =>
    obtain ⟨τ, good, -⟩ := step_reaches hg st
    exact ih (h.step hg st) good

lemma start_apart (hasher : Hasher) (options : Options) (steps : List Step) :
    ((start hasher options).after steps).Apart := by
  have initially : (initial hasher).Apart := by simp [Apart, initial]
  exact initially.after (initial_good hasher) (.newProvider "P" options :: steps)

/-- A step leaves every provider that it does not work on as it was, wherever else its objects are held. -/
theorem providers_isolated (hasher : Hasher) (options : Options) (steps : List Step) :
    let s := (start hasher options).after steps
    (∀ st p q, st.provider? ≠ some p → s.providers.lookup p = some q →
      (step s st).2.2.providers.lookup p = some q ∧
        ∀ a b, q.Root hasher a → (step s st).2.2.Holds b → a.SameObject b → Item.Matches a b) ∧
      ∀ p p' q q', p ≠ p' → s.providers.lookup p = some q → s.providers.lookup p' = some q' →
        (∀ id, q.Registered id → q'.Registered id → ∃ t : SharedType, t.handle.id = id) ∧
          ∀ k l, ∀ r ∈ q.lists k, ∀ r' ∈ q'.lists l, r.storage ≠ r'.storage := by
  intro s
  obtain ⟨σ, good, hash⟩ := start_good hasher options steps
  refine ⟨fun st p q hst hq => ?_, fun p p' q q' hp hq hq' => ?_⟩
  · obtain ⟨τ, good', later⟩ := step_reaches good st
    have kept : (step s st).2.2.providers.lookup p = some q := (step_lookup_other good hst).trans hq
    refine ⟨kept, fun a b ha hb hs => Store.matches_of_sameObject ?_ (good'.fits_of_holds hb) hs⟩
    rw [← hash, ← later.hasher] at ha
    exact good'.providers _ (mem_of_lookup kept) a ha
  · have apart := start_apart hasher options steps _ (mem_of_lookup hq) _ (mem_of_lookup hq') hp
    exact ⟨apart.entry, apart.record⟩

theorem providers_isolated_copy :
    let s := (start .colliding ⟨false, 0⟩).after
      [.bind "a" (.entity .typeRef (.named "N" "T" [])), .intern "P" "a", .newProvider "Q" ⟨false, 0⟩]
    let t := (step s (.intern "Q" "a")).2.2
    let x : Handle TypeRef := ⟨4, .named ⟨95, "N"⟩ ⟨96, "T"⟩ ⟨false, 3, []⟩⟩
    s.register? "a" = some (.entity .typeRef x) ∧ t.providers.lookup "P" = s.providers.lookup "P" ∧
      (∀ b, t.Holds b → (Item.entity .typeRef x).SameObject b → Item.Matches (.entity .typeRef x) b) ∧
      ∀ q, t.providers.lookup "Q" = some q → ¬ q.Registered x.id := by
  intro s t x
  have bound : (s.providers.lookup "P").isSome = true := by decide +kernel
  obtain ⟨q, hq⟩ := Option.isSome_iff_exists.mp bound
  have entry : q.HasEntry .typeRef x := by
    have known : (s.providers.lookup "P").map (fun q => (q.entities .typeRef).map Entry.entity) =
      some [SharedType.unknown.handle, SharedType.null.handle, SharedType.dynamic.handle, x] := rfl
    rw [hq, Option.map_some, Option.some.injEq] at known
    have listed : x ∈ (q.entities .typeRef).map Entry.entity := by simp [known]
    exact List.mem_map.mp listed
  obtain ⟨unchanged, -⟩ := providers_isolated .colliding ⟨false, 0⟩
    [.bind "a" (.entity .typeRef (.named "N" "T" [])), .intern "P" "a", .newProvider "Q" ⟨false, 0⟩]
  obtain ⟨kept, same⟩ := unchanged (.intern "Q" "a") "P" q (by simp [Step.provider?]) hq
  obtain ⟨-, apart⟩ := providers_isolated .colliding ⟨false, 0⟩
    [.bind "a" (.entity .typeRef (.named "N" "T" [])), .intern "P" "a", .newProvider "Q" ⟨false, 0⟩, .intern "Q" "a"]
  refine ⟨rfl, kept.trans hq.symm, fun b hb hs => same _ b (.entry entry) hb hs, fun q' hq' hr => ?_⟩
  obtain ⟨u, hu⟩ := (apart "P" "Q" q q' (by simp) kept hq').1 x.id ⟨.typeRef, x, entry, rfl⟩ hr
  cases u <;> simp [SharedType.handle, x] at hu

end Session

end CodeModel
