import CodeModel.Proofs.Session.Interning

namespace CodeModel.Session

variable {σ τ : Store} {s t : Session} {is : List Item} {p : TextPool} {o : PoolOutcome × TextPool}

structure Pooled (h : Hasher) (p : TextPool) (o : PoolOutcome × TextPool) (is : List Item) : Prop where
  grows : p.Grows h o.2
  filed : p.Filed h → o.2.Filed h
  texts : ∀ a v, o.2.find? h a = some v → p.find? h a = some v ∨ .text v ∈ is
  result : ∀ v, o.1.result = some v → ∃ a, o.2.find? h a = some v

lemma pooled_same {h : Hasher} (p : TextPool) {r : PoolOutcome} (is : List Item)
    (hr : ∀ v, r.result = some v → ∃ a, p.find? h a = some v) : Pooled h p (r, p) is :=
  ⟨.refl p, id, fun _ _ hv => .inl hv, hr⟩

lemma pooled_adopt {h : Hasher} (p : TextPool) {r : PoolOutcome} {v : Text} (hv : .text v ∈ is)
    (hr : ∀ u, r.result = some u → u = (p.adopt h v).1) : Pooled h p (r, (p.adopt h v).2) is where
  grows := TextPool.grows_adopt p v
  filed hp := hp.adopt v
  texts a u hu := (TextPool.find?_of_adopt hu).imp_right fun he => by rwa [he]
  result u hu := ⟨v.val, hr u hu ▸ TextPool.find?_adopt h p v⟩

lemma pooled_internAll {h : Hasher} (p : TextPool) (a : Nat) (ss : List String) :
    Pooled h p (.nothing, p.internAll h a ss) ((ss.zipIdx a).map (fun q => .text ⟨q.2, q.1⟩) ++ is) where
  grows := TextPool.grows_internAll p a ss
  filed hp := hp.internAll a ss
  texts b v hv := (TextPool.find?_of_internAll hv).imp_right fun ⟨q, hq, he⟩ =>
    List.mem_append_left _ (List.mem_map.mpr ⟨q, hq, by rw [he]⟩)
  result := by simp [PoolOutcome.nothing]

def Acted (σ : Store) (s : Session) (p : TextPool) (o : PoolOutcome × TextPool) (t : Session) : Prop :=
  ∃ is, Hand σ s is [] t ∧ Pooled s.hasher p o is

theorem act_makes (hg : s.Good σ) (p : TextPool) (action : PoolAction) :
    (act s.hasher p action).Makes (· = s) (Acted σ s p) := by
  refine .weaken (P := Hand σ s [] []) ?_ fun t ht => ht.symm ▸ hand_start hg
  cases action with
  | intern v =>
    refine (Builder.textLabels_makes [v]).bind fun a => .pure fun t ht => ⟨_, ht, ?_⟩
    apply pooled_adopt p (v := ⟨a, v⟩) (by simp)
    intro _ hu
    exact (Option.some.inj hu).symm
  | fetch v =>
    refine (Builder.textLabels_makes [v]).bind fun a => ?_
    rw [TextPool.fetch_eq]
    exact .pure fun t ht =>
      ⟨_, ht, pooled_adopt p (v := ⟨a, v⟩) (by simp) fun _ hu => (Option.some.inj hu).symm⟩
  | adopt r =>
    exact r.build_makes.bind fun v => .pure fun t ht =>
      ⟨_, ht, pooled_adopt p (by simp) fun _ hu => (Option.some.inj hu).symm⟩
  | get v => exact .pure fun t ht => ⟨_, ht, pooled_same p _ fun u hu => ⟨v, hu⟩⟩
  | isPooled r =>
    exact r.build_makes.bind fun v => .pure fun t ht => ⟨_, ht, pooled_same p _ (by simp [PoolOutcome.nothing])⟩
  | internCommon =>
    exact .bind (Builder.textLabels_makes TextPool.commonTexts) fun a => .pure fun t ht =>
      ⟨_, ht, pooled_internAll p a TextPool.commonTexts⟩
  | size => exact .pure fun t ht => ⟨_, ht, pooled_same p _ (by simp [PoolOutcome.nothing])⟩
  | file r =>
    refine r.build_makes.bind fun q => .pure fun t ht => ⟨_, ht, ?_⟩
    cases hq : q.file with
    | none =>
      simp only [poolFile, hq]
      exact pooled_same p _ (by simp [PoolOutcome.nothing])
    | some f =>
      simp only [poolFile, hq]
      exact pooled_adopt p (by simp [Region.part, hq]) (by simp [PoolOutcome.nothing])

lemma Good.fits_pool? {name : String} (hg : s.Good σ) (hp : s.pool? name = some p) {a : String} {v : Text}
    (hv : p.find? s.hasher a = some v) : σ.Fits (.text v) := by
  rcases Option.or_eq_some_iff.mp hp with hp | ⟨-, hp⟩
  · exact hg.pools _ (mem_of_lookup hp) a v hv
  · obtain ⟨q, hq, rfl⟩ := Option.map_eq_some_iff.mp hp
    exact hg.providers _ (mem_of_lookup hq) _ (.text hv)

lemma putPool_pool {name : String} (hp : s.pools.lookup name = some p) (c : TextPool) :
    s.putPool name c = { s with pools := assign name c s.pools } := by
  rw [Session.putPool, if_pos (by simp [hp])]

lemma putPool_provider {name : String} {q : Provider} (hn : s.pools.lookup name = none)
    (hq : s.providers.lookup name = some q) (c : TextPool) :
    s.putPool name c = { s with providers := assign name { q with pool := c } s.providers } := by
  simp only [Session.putPool, hn, hq, Option.isSome_none, Bool.false_eq_true, if_false]

theorem Good.putPool {name : String} (hg : s.Good σ) (hp : s.pool? name = some p) {p' : TextPool}
    (hgrow : p.Grows s.hasher p') (hfiled : p.Filed s.hasher → p'.Filed s.hasher)
    (hf : ∀ a v, p'.find? s.hasher a = some v → σ.Fits (.text v)) :
    (s.putPool name p').Good σ ∧ Later σ s σ (s.putPool name p') := by
  rcases Option.or_eq_some_iff.mp hp with hp | ⟨hn, hp⟩
  · rw [putPool_pool hp]
    refine ⟨{ hg with pools := fun b hb a v hv => ?_ }, { Later.refl σ s with }⟩
    rcases mem_of_mem_assign hb with rfl | hb
    · exact hf a v hv
    · exact hg.pools b hb a v hv
  · obtain ⟨q, hq, rfl⟩ := Option.map_eq_some_iff.mp hp
    rw [putPool_provider hn hq]
    have held := mem_of_lookup hq
    have sound := (hg.sound _ held).withPool hgrow (hfiled (hg.sound _ held).filed)
    exact ⟨hg.provider hq (Provider.fits_pool (hg.providers _ held) hf) sound rfl,
      (Later.refl σ s).provider hq (Provider.grows_pool hgrow)⟩

lemma keep_makes (target : Option String) (o : Option Text) : (pool.keep target o).Makes
    (fun t => ∃ τ, t.Good τ ∧ Later σ s τ t ∧ ∀ v, o = some v → τ.Fits (.text v)) (fun _ t => Reaches σ s t) := by
  unfold pool.keep
  split
  · refine .bind (Q := fun _ t => Reaches σ s t) (.modify fun t ⟨τ, hg, hl, hf⟩ => ?_)
      fun _ => .pure fun t ht => ht
    exact ⟨τ, hg.put_item (hf _ rfl) (by simp), { hl with }⟩
  · exact .pure fun t ⟨τ, hg, hl, _⟩ => ⟨τ, hg, hl⟩

lemma pool_makes {name : String} {action : PoolAction} {target : Option String} {R : Session → Prop}
    {P : TextPool → PoolOutcome × TextPool → Session → Prop} {Q : Option Text → Session → Prop}
    (hact : ∀ c, (act s.hasher c action).Makes (· = s) (P c))
    (hput : ∀ c o t, s.pool? name = some c → P c o t → Q o.1.result (t.putPool name o.2))
    (hkeep : ∀ o, (pool.keep target o).Makes (Q o) (fun _ => R)) :
    (run (.pool name action target)).Makes (· = s) (fun _ => R) := by
  refine .bind (Q := fun u t => t = s ∧ u = s) (.get fun t ht => ⟨ht, ht⟩) fun u => .given fun hu => ?_
  subst hu
  refine .bind (Q := fun c t => t = u ∧ u.pool? name = some c) (.ofOption fun c hc t ht => ⟨ht, hc⟩) fun c =>
    .given fun hc => ?_
  refine (hact c).bind fun o => ?_
  exact .bind (.modify fun t ht => hput c o t hc ht) fun _ => (hkeep _).bind fun _ => .pure fun t ht => ht

theorem pool_moves (name : String) (action : PoolAction) (target : Option String) :
    Moves (run (.pool name action target)) := by
  intro σ s hg
  refine pool_makes (act_makes hg · action) (fun p o t hp ht => ?_) (keep_makes (σ := σ) (s := s) target)
  obtain ⟨is, ⟨τ, good, hb, hf, -⟩, grows, filed, texts, result⟩ := ht
  have hasher : t.hasher = s.hasher := by rw [hb.same]
  have found : t.pool? name = some p := by rw [← hp, hb.same]; rfl
  have fits (a : String) (v : Text) (hv : o.2.find? s.hasher a = some v) : τ.Fits (.text v) := by
    rcases texts a v hv with hv | hv
    · exact (hg.fits_pool? hp hv).mono hb.extends' (by simp)
    · exact hf _ hv
  obtain ⟨good', later⟩ := good.putPool found (hasher ▸ grows) (hasher ▸ filed) (hasher ▸ fits)
  refine ⟨τ, good', (hb.later hg).trans later, fun v hv => ?_⟩
  obtain ⟨a, ha⟩ := result v hv
  exact fits a v ha

end CodeModel.Session
