import CodeModel.Proofs.Session.Frames
import CodeModel.Proofs.Tables.Spellings

/-! A pool of a session is what the uses of it make of an empty one. -/

namespace CodeModel

open Session

def PoolAction.use : PoolAction → Builder TextPool.Use
  | intern s => return .intern (← Builder.textLabels 1) s
  | fetch s => return .fetch (← Builder.textLabels 1) s
  | adopt r => return .adopt (← r.build)
  | get s => return .get s
  | isPooled r => return .isPooled (← r.build)
  | internCommon => return .internCommon (← Builder.textLabels TextPool.commonTexts.length)
  | size => return .size
  | file r => return .file (← r.build)

namespace Session

variable {σ : Store} {s t : Session} {name : String} {p : TextPool} {action : PoolAction} {st : Step}
  {u : TextPool.Use}

lemma act_eq (h : Hasher) (p : TextPool) (action : PoolAction) : act h p action = p.use h <$> action.use := by
  cases action <;> simp [act, PoolAction.use, TextPool.use]

def used? (s : Session) (name : String) : Step → Option (TextPool.Use × PoolOutcome)
  | .pool n action _ =>
    if n = name then do
      let p ← s.pool? name
      let (u, _) ← action.use.run { s with events := [] }
      let ((o, _), _) ← (act s.hasher p action).run { s with events := [] }
      return (u, o)
    else none
  | _ => none

def used (s : Session) (name : String) : List Step → List (TextPool.Use × PoolOutcome)
  | [] => []
  | st :: steps => (s.used? name st).toList ++ (step s st).2.2.used name steps

lemma keep_run (target : Option String) (o : Option Text) (s : Session) :
    ∃ a t, (pool.keep target o).run s = some (a, t) ∧ t.pools = s.pools := by
  unfold pool.keep
  split
  · exact ⟨_, _, rfl, rfl⟩
  · exact ⟨_, _, rfl, rfl⟩

lemma use_builds (hg : s.Good σ) (action : PoolAction) :
    action.use.Makes (· = s) (fun _ t => ∃ τ, Built σ s τ t) := by
  have built {is : List Item} {t : Session} (h : Hand σ s is [] t) : ∃ τ, Built σ s τ t := by
    obtain ⟨τ, -, hb, -⟩ := h
    exact ⟨τ, hb⟩
  refine .weaken (P := Hand σ s [] []) ?_ fun t ht => ht.symm ▸ hand_start hg
  cases action with
  | get | size => exact .pure fun t ht => built ht
  | intern v | fetch v => exact (Builder.textLabels_makes [v]).bind fun a => .pure fun t ht => built ht
  | adopt r | isPooled r => exact r.build_makes.bind fun v => .pure fun t ht => built ht
  | internCommon => exact (Builder.textLabels_makes TextPool.commonTexts).bind fun a => .pure fun t ht => built ht
  | file r => exact r.build_makes.bind fun q => .pure fun t ht => built ht

lemma use_reads_pools (hg : s.Good σ) (action : PoolAction) :
    action.use.Makes (· = s) (fun _ t => t.pools = s.pools ∧ t.hasher = s.hasher) := by
  refine (use_builds hg action).imp fun _ t ⟨_, hb⟩ => ?_
  rw [hb.same]
  exact ⟨rfl, rfl⟩

lemma pool_run {o : PoolOutcome} {q : TextPool} (hp : s.pools.lookup name = some p)
    (hu : action.use.run s = some (u, t)) (ht : t.pools = s.pools) (ho : p.use s.hasher u = (o, q))
    (target : Option String) :
    ∃ a v, (run (.pool name action target)).run s =
        some (.pool ⟨q.size, q.isEmpty, q.inspect, a, o.found, o.adopted, o.pooled, o.file⟩, v) ∧
      v.pools.lookup name = some q := by
  have found : s.pool? name = some p := by simp [pool?, hp]
  obtain ⟨a, v, hrun, hv⟩ := keep_run target o.result (t.putPool name q)
  refine ⟨a, v, ?_, ?_⟩
  · simp [run, pool, found, act_eq, hu, ho, hrun, Builder.ofOption]
  · rw [hv, putPool_pool (ht ▸ hp)]
    exact lookup_assign_self

theorem step_used (hg : s.Good σ) (hp : s.pools.lookup name = some p) (hn : st ≠ .newPool name) :
    (step s st).2.2.pools.lookup name = some (p.uses s.hasher ((s.used? name st).toList.map Prod.fst)) ∧
      ∀ o ∈ s.used? name st, o.2 = (p.use s.hasher o.1).1 := by
  by_cases hst : ∃ action target, st = .pool name action target
  · obtain ⟨action, target, rfl⟩ := hst
    have found : s.pool? name = some p := by simp [pool?, hp]
    have idle : ({ s with events := [] } : Session).pools.lookup name = some p := hp
    cases hu : action.use.run { s with events := [] } with
    | none =>
      have none : s.used? name (.pool name action target) = none := by simp [used?, found, hu]
      have fails : (run (.pool name action target)).run { s with events := [] } = .none := by
        have : ({ s with events := [] } : Session).pool? name = some p := found
        simp [run, pool, this, act_eq, hu, Builder.ofOption]
      simp only [step, fails, none]
      exact ⟨hp, by simp⟩
    | some o =>
      obtain ⟨u, t⟩ := o
      have uses : s.used? name (.pool name action target) = some (u, (p.use s.hasher u).1) := by
        simp [used?, found, hu, act_eq]
      obtain ⟨a, v, hrun, hv⟩ := pool_run idle hu (use_reads_pools (hg.withEvents []) action _ rfl u t hu).1
        (Prod.eta _).symm target
      simp only [step, hrun, uses]
      exact ⟨hv, by simp⟩
  · have other : s.used? name st = none := by
      cases st with
      | pool n action target =>
        have ne : n ≠ name := fun he => hst ⟨action, target, by rw [he]⟩
        simp [used?, ne]
      | _ => rfl
    have ne : st.pool? ≠ some name := by
      cases st with
      | newPool n => simpa [Step.pool?] using hn
      | pool n action target => simpa [Step.pool?] using fun he => hst ⟨action, target, by rw [he]⟩
      | _ => simp [Step.pool?]
    rw [step_pools_other hg ne, hp, other]
    exact ⟨rfl, by simp⟩

theorem after_used {more : List Step} (hg : s.Good σ) (hp : s.pools.lookup name = some p)
    (hn : ∀ st ∈ more, st ≠ .newPool name) :
    (s.after more).pools.lookup name = some (p.uses s.hasher ((s.used name more).map Prod.fst)) ∧
      TextPool.Follows s.hasher p (s.used name more) := by
  induction more generalizing s σ p with
  | nil => exact ⟨hp, .nil p⟩
  | cons st more ih =>
    simp only [List.mem_cons, forall_eq_or_imp] at hn
    obtain ⟨hp', gives⟩ := step_used hg hp hn.1
    obtain ⟨τ, good, later⟩ := step_reaches hg st
    obtain ⟨found, follows⟩ := ih good hp' hn.2
    rw [later.hasher] at found follows
    rw [used]
    cases hu : s.used? name st with
    | none =>
      rw [hu] at found follows
      exact ⟨found, follows⟩
    | some e =>
      obtain ⟨u, o⟩ := e
      obtain rfl : o = (p.use s.hasher u).1 := gives _ hu
      rw [hu] at found follows
      exact ⟨found, .cons u follows⟩

lemma answers_of_follows {hasher : Hasher} {uses before rest : List (TextPool.Use × PoolOutcome)} {u : TextPool.Use}
    {o : PoolOutcome} (h : TextPool.Follows hasher .empty uses) (hu : uses = before ++ (u, o) :: rest) :
    let m' := Spellings.initial.enter (before.flatMap fun e => e.1.offers)
    o = m'.answer u ∧ ∀ v, u.spelling? = some v → o.result = (m'.enter u.offers).handle v ∧
      ∀ t, o.result = some t → t.val = v ∧
        (Spellings.initial.enter (uses.flatMap fun e => e.1.offers)).handle v = some t := by
  subst hu
  intro m'
  have answer : o = m'.answer u := by rw [h.at, TextPool.spellings_empty]
  refine ⟨answer, fun v hv => ?_⟩
  have result : o.result = (m'.enter u.offers).handle v := by rw [answer, Spellings.answer_result hv]
  refine ⟨result, fun t ht => ?_⟩
  rw [result] at ht
  refine ⟨(m'.enter u.offers).spelled ht, ?_⟩
  simp only [List.flatMap_append, List.flatMap_cons, Spellings.enter_append]
  exact Spellings.enter_old ht _

/-- Whatever a session does since it made a pool, the pool is one plain map from spellings to handles. -/
theorem pool_is_map (hasher : Hasher) (options : Options) (steps more : List Step)
    (hn : ∀ st ∈ more, st ≠ .newPool name) :
    let s := (start hasher options).after (steps ++ [.newPool name])
    let uses := s.used name more
    let offered := uses.flatMap fun e => e.1.offers
    let m := Spellings.initial.enter offered
    ∃ p, (s.after more).pools.lookup name = some p ∧ p.find? hasher = m.handle ∧
      (m.handle "" = some Text.empty ∧ ∀ v ≠ "", m.handle v = offered.find? (·.val == v)) ∧
      p.size = 1 + ((offered.map Handle.val).toFinset.erase "").card ∧
      (∀ t, p.isPooled hasher t = true ↔ m.handle t.val = some t) ∧
      (∀ before u o rest, uses = before ++ (u, o) :: rest →
        let m' := Spellings.initial.enter (before.flatMap fun e => e.1.offers)
        o = m'.answer u ∧ ∀ v, u.spelling? = some v → o.result = (m'.enter u.offers).handle v ∧
          ∀ t, o.result = some t → t.val = v ∧ m.handle v = some t) ∧
      (∀ e ∈ uses, ∀ f ∈ uses, ∀ v w t t', e.1.spelling? = some v → f.1.spelling? = some w → e.2.result = some t →
        f.2.result = some t' → (t.id = t'.id ↔ v = w)) ∧
      ∀ u : TextPool.Use, (∀ t ∈ u.offers, (m.handle t.val).isSome = true) → (p.use hasher u).2 = p := by
  intro s uses offered m
  obtain ⟨σ, good, hash⟩ : ∃ σ, s.Good σ ∧ s.hasher = hasher := start_good hasher options _
  have made : s.pools.lookup name = some .empty := by
    simp only [s, after_append]
    exact lookup_assign_self
  obtain ⟨found, follows⟩ := after_used good made hn
  obtain ⟨τ, good', later⟩ := after_reaches good more
  rw [hash] at found follows
  have stands : (TextPool.empty.uses hasher (uses.map Prod.fst)).spellings hasher = m := by
    rw [TextPool.spellings_uses, TextPool.spellings_empty, List.flatMap_map]
  have handle : (TextPool.empty.uses hasher (uses.map Prod.fst)).find? hasher = m.handle :=
    congrArg Spellings.handle stands
  have fits {v : String} {t : Text} (ht : m.handle v = some t) : τ.Fits (.text t) := by
    apply good'.pools _ (mem_of_lookup found) v t
    rw [later.hasher, hash, handle, ht]
  have given {e : TextPool.Use × PoolOutcome} (he : e ∈ uses) {v : String} {t : Text} (hv : e.1.spelling? = some v)
      (ht : e.2.result = some t) : t.val = v ∧ m.handle v = some t := by
    obtain ⟨before, rest, hu⟩ := List.append_of_mem he
    exact ((answers_of_follows follows hu).2 v hv).2 t ht
  refine ⟨_, found, handle, ⟨m.empty, fun v hv => Spellings.initial_enter hv offered⟩, ?_, fun t => ?_,
    fun before u o rest hu => answers_of_follows follows hu, fun e he f hf v w t t' hv hw ht ht' => ?_, fun u hu => ?_⟩
  · rw [TextPool.size_uses, List.flatMap_map]
  · rw [TextPool.isPooled_eq, stands, decide_eq_true_eq]
  · obtain ⟨rfl, known⟩ := given he hv ht
    obtain ⟨rfl, known'⟩ := given hf hw ht'
    have text := fits known
    have text' := fits known'
    rw [Store.fits_text] at text text'
    constructor
    · intro hid
      rw [hid, text'] at text
      exact (Option.some.inj text).symm
    · intro hval
      rw [hval, known', Option.some.injEq] at known
      rw [known]
  · exact TextPool.use_known (stands ▸ hu)

theorem pool_is_map_three :
    let more := [.pool "a" (.intern "x") none, .bind "r" (.text (.fresh "y")),
      .pool "a" (.adopt (.register "r")) none, .pool "a" (.adopt (.fresh "x")) none, .pool "a" (.adopt (.fresh "")) none]
    let t := ((start .colliding ⟨false, 0⟩).after [.newPool "a"]).after more
    ∃ p u, t.pools.lookup "a" = some p ∧ p.size = 3 ∧ p.find? .colliding "x" = some ⟨95, "x"⟩ ∧
      t.register? "r" = some (.text u) ∧ p.isPooled .colliding u = true := by
  intro more t
  have others : ∀ st ∈ more, st ≠ .newPool "a" := by simp [more]
  obtain ⟨p, found, handle, -, size, pooled, -⟩ := pool_is_map .colliding ⟨false, 0⟩ [] more others
  refine ⟨p, ⟨96, "y"⟩, found, size, ?_, rfl, (pooled _).mpr rfl⟩
  rw [handle]
  rfl

end Session

end CodeModel
