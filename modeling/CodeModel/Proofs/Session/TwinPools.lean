import CodeModel.Proofs.Session.PoolUses
import CodeModel.Proofs.Session.TwinCalls

namespace CodeModel

open Session Builder

variable {d : Seeding} {h : Hasher}

section Uses

inductive TextPool.Use.Twin (d : Seeding) : Use → Use → Prop
  | intern (label : Nat) (v : String) : Twin d (intern label v) (intern label v)
  | fetch (label : Nat) (v : String) : Twin d (fetch label v) (fetch label v)
  | adopt {t u : Text} : t.Twin d u → Twin d (adopt t) (adopt u)
  | get (v : String) : Twin d (get v) (get v)
  | isPooled {t u : Text} : t.Twin d u → Twin d (isPooled t) (isPooled u)
  | internCommon (label : Nat) : Twin d (internCommon label) (internCommon label)
  | size : Twin d size size
  | file {r q : Region} : r.Twin d q → Twin d (file r) (file q)

lemma TextPool.Use.Twin.offers {u v : Use} (huv : u.Twin d v) : List.Forall₂ (Text.Twin d) u.offers v.offers := by
  cases huv with
  | intern | fetch => exact .cons (.refl _) .nil
  | adopt htu => exact .cons htu .nil
  | get | isPooled | size => exact .nil
  | internCommon => exact List.forall₂_same.mpr fun t _ => .refl t
  | @file r q hrq =>
    obtain ⟨file, -⟩ := Region.twin_iff.mp hrq
    simp only [Use.offers]
    rcases rel_cases file with ⟨hn, hn'⟩ | ⟨t, u, ht, hu, htu⟩
    · rw [hn, hn']
      exact .nil
    · rw [ht, hu]
      exact .cons htu .nil

lemma TextPool.Twin.use {seeded : Prop} {p q : TextPool} {u v : Use} (hpq : p.Twin h d seeded q) (huv : u.Twin d v) :
    (p.use h u).2.Twin h d seeded (q.use h v).2 := by
  rw [TextPool.Twin, (use_spec p u).2, (use_spec q v).2]
  exact hpq.enter huv.offers

lemma PoolAction.use_alike (action : PoolAction) : Alike d (TextPool.Use.Twin d) action.use action.use := by
  cases action with
  | intern v => exact (textLabels_alike 1).bind fun a _ hab => .pure (hab ▸ .intern a v)
  | fetch v => exact (textLabels_alike 1).bind fun a _ hab => .pure (hab ▸ .fetch a v)
  | adopt r => exact r.build_alike.bind fun _ _ htu => .pure (.adopt htu)
  | get v => exact .pure (.get v)
  | isPooled r => exact r.build_alike.bind fun _ _ htu => .pure (.isPooled htu)
  | internCommon => exact (textLabels_alike _).bind fun a _ hab => .pure (hab ▸ .internCommon a)
  | size => exact .pure .size
  | file r => exact r.build_alike.bind fun _ _ hrq => .pure (.file hrq)

section Outcomes

variable {seeded : Prop} {m n : Spellings} {u v : TextPool.Use}

lemma Region.Twin.files {r q : Region} (hrq : r.Twin d q) : r.file.map Handle.val = q.file.map Handle.val := by
  rcases rel_cases (Region.twin_iff.mp hrq).1 with ⟨hn, hn'⟩ | ⟨t, u, ht, hu, htu⟩
  · rw [hn, hn']
  · rw [ht, hu, Option.map_some, Option.map_some, htu.1]

lemma Region.Twin.display {r q : Region} (hrq : r.Twin d q) : r.display = q.display := by
  obtain ⟨f, start, stop⟩ := r
  obtain ⟨g, _, _⟩ := q
  obtain ⟨-, rfl, rfl⟩ := Region.twin_iff.mp hrq
  have files : f.map Handle.val = g.map Handle.val := hrq.files
  simp only [Region.display, Region.isEmpty, files]

lemma Region.Twin.same {r r' q q' : Region} (hr : r.Twin d r') (hq : q.Twin d q') : r.same q = r'.same q' := by
  obtain ⟨-, start, stop⟩ := Region.twin_iff.mp hr
  obtain ⟨-, start', stop'⟩ := Region.twin_iff.mp hq
  simp only [Region.same, hr.files, hq.files, start, stop, start', stop']

lemma Spellings.Twin.result (hmn : m.Twin d seeded n) (huv : u.Twin d v)
    (hget : ∀ w, u = .get w → ¬ (seeded ∧ w ∈ TextPool.commonTexts)) :
    Option.Rel (Text.Twin d) (m.answer u).result (n.answer v).result := by
  cases huv with
  | intern label w | fetch label w => exact .some (hmn.handle (t := ⟨label, w⟩) (.refl _))
  | adopt htu => exact .some (hmn.handle htu)
  | get w => exact hmn.same w (hget w rfl)
  | isPooled | internCommon | size => exact .none
  | @file r q hrq =>
    have none (m : Spellings) (r : Region) : (m.answer (.file r)).result = .none := by
      cases hr : r.file <;> simp only [answer, hr] <;> rfl
    rw [none, none]
    exact .none

lemma Spellings.Twin.file (hmn : m.Twin d seeded n) (huv : u.Twin d v) :
    (m.answer u).file.map Prod.snd = (n.answer v).file.map Prod.snd := by
  cases huv with
  | @file r q hrq =>
    obtain ⟨file, start, stop⟩ := Region.twin_iff.mp hrq
    rcases rel_cases file with ⟨hn, hn'⟩ | ⟨t, u, ht, hu, htu⟩
    · simp only [answer, hn, hn', hrq.display, Option.map_some]
    · have pooled : Region.Twin d { r with file := some ((m.handle t.val).getD t) }
          { q with file := some ((n.handle u.val).getD u) } :=
        Region.twin_iff.mpr ⟨.some (hmn.handle htu), start, stop⟩
      simp only [answer, ht, hu, Option.map_some, pooled.display, hrq.same pooled]
  | _ => rfl

end Outcomes

end Uses

/-- A look-up that puts a common text of pool `name`, if it is there, into a register. -/
def Step.Reveals (name : String) : Step → Prop
  | .pool n (.get v) (some _) => n = name ∧ v ∈ TextPool.commonTexts
  | _ => False

namespace Session

variable {s t : Session} {σ τ : Store} {name : String} {seeded : Prop} {p q : TextPool}

lemma keep_alike (target : Option String) {a b : Option Text} (h : target = none ∨ Option.Rel (Text.Twin d) a b) :
    Alike d (· = ·) (pool.keep target a) (pool.keep target b) := by
  cases target with
  | none => exact .pure rfl
  | some target =>
    have rel := h.resolve_left (by simp)
    rcases rel_cases rel with ⟨hn, hn'⟩ | ⟨x, y, hx, hy, hxy⟩
    · rw [hn, hn']
      exact .pure rfl
    · rw [hx, hy]
      exact (assignItem_alike target (.text hxy)).bind fun _ _ _ => .pure (congrArg some hxy.1)

section First

variable {α β γ : Type} {S : α → β → Prop}

lemma found_pairs {x y : γ} {f : γ → Builder α} {g : γ → Builder β} (h : Builder.Pairs d S (f x) (g y) s t) :
    Builder.Pairs d S (Builder.ofOption (some x) >>= f) (Builder.ofOption (some y) >>= g) s t := h

lemma modify_pairs {f g : Session → Session} {next : Unit → Builder α} {next' : Unit → Builder β}
    (h : Builder.Pairs d S (next ()) (next' ()) (f s) (g t)) :
    Builder.Pairs d S (modify f >>= next) (modify g >>= next') s t := h

end First

lemma get_of_use {action : PoolAction} {w : String} (h : action.use.run s = some (.get w, t)) : action = .get w := by
  cases action with
  | get v =>
    obtain ⟨rfl, -⟩ : v = w ∧ s = t := by simpa [PoolAction.use] using h
    rfl
  | size => simp [PoolAction.use] at h
  | intern v | fetch v | internCommon => simp [PoolAction.use, Builder.textLabels] at h
  | adopt r | isPooled r | file r =>
    simp only [PoolAction.use, StateT.run_bind] at h
    obtain ⟨⟨x, u⟩, -, hx⟩ := Option.bind_eq_some_iff.mp h
    simp at hx

lemma pool_pairs_of {action : PoolAction} {target : Option String} (hg : s.Good σ) (ht : t.Good τ) (hst : s.Twin d t)
    (hp : s.pool? name = some p) (hq : t.pool? name = some q) (hpq : p.Twin s.hasher d seeded q)
    (hget : ∀ v, action = .get v → target = none ∨ ¬ (seeded ∧ v ∈ TextPool.commonTexts))
    (hput : ∀ σ' τ' u v p' q', Built σ s σ' u → Built τ t τ' v → u.Twin d v → p'.Twin s.hasher d seeded q' →
      (u.putPool name p').Twin d (v.putPool name q')) :
    Builder.Pairs d (Answer.Alike false) (pool name action target) (pool name action target) s t := by
  refine get_pairs ?_
  rw [hp, hq]
  refine found_pairs ?_
  simp only [act_eq, ← hst.hasher, bind_map_left]
  refine (action.use_alike s t hst).bind fun a b u v hu hv hab huv => ?_
  obtain ⟨σ', built⟩ := use_builds hg action s rfl a u hu
  obtain ⟨τ', built'⟩ := use_builds ht action t rfl b v hv
  have outcome := TextPool.use_spec (h := s.hasher) p a
  have outcome' := TextPool.use_spec (h := s.hasher) q b
  have kept : target = none ∨ Option.Rel (Text.Twin d) (p.use s.hasher a).1.result (q.use s.hasher b).1.result := by
    rw [outcome.1, outcome'.1]
    refine or_iff_not_imp_left.mpr fun some => hpq.result hab fun w hw => ?_
    exact (hget w (get_of_use (hw ▸ hu))).resolve_left some
  have file := hpq.file hab
  rw [← outcome.1, ← outcome'.1] at file
  refine modify_pairs (((keep_alike target kept).bind fun x y hxy => .pure ?_) _ _
    (hput σ' τ' u v _ _ built built' huv (hpq.use hab)))
  have moved (o : Option (Bool × Bool × String)) :
      (o.map fun f => (false, f.2)) = (o.map Prod.snd).map (Prod.mk false) := by
    rw [Option.map_map]
    rfl
  simp only [Answer.Alike, Answer.blind, PoolView.blind, hxy, moved, file]

lemma Twin.putPool {p' q' : TextPool} (h : s.Twin d t) (hp : s.pools.lookup name = some p)
    (hq : t.pools.lookup name = some q) (hpq : p'.Twin s.hasher d False q') :
    (s.putPool name p').Twin d (t.putPool name q') := by
  rw [putPool_pool hp, putPool_pool hq]
  exact { h with pools := rel_assign h.pools name hpq }

lemma Twin.putProviderPool {c c' : Provider} {p' q' : TextPool} (h : s.Twin d t) (hn : s.pools.lookup name = none)
    (hn' : t.pools.lookup name = none) (hc : s.providers.lookup name = some c)
    (hc' : t.providers.lookup name = some c') (hcc : c.Twin s.hasher d c')
    (hpq : p'.Twin s.hasher d (c.number = d.number) q') : (s.putPool name p').Twin d (t.putPool name q') := by
  rw [putPool_provider hn hc, putPool_provider hn' hc']
  refine { h with providers := rel_assign h.providers name (hcc.withPool hpq), named := fun b hb hnumber => ?_ }
  rcases mem_of_mem_assign hb with rfl | hb
  · exact h.named (name, c) (mem_of_lookup hc) hnumber
  · exact h.named b hb hnumber

theorem pool_pairs (hg : s.Good σ) (ht : t.Good τ) (hst : s.Twin d t) (name : String) (action : PoolAction)
    (target : Option String) (hr : ¬ (Step.pool name action target).Reveals d.name) :
    Builder.Pairs d (Answer.Alike false) (pool name action target) (pool name action target) s t := by
  rcases rel_cases (rel_lookup hst.pools name) with ⟨hn, hn'⟩ | ⟨p, q, hp, hq, hpq⟩
  · rcases rel_cases (hst.provider? name) with ⟨hm, hm'⟩ | ⟨c, c', hc, hc', twins⟩
    · have missing : s.pool? name = none := by simp [pool?, hn, hm]
      have missing' : t.pool? name = none := by simp [pool?, hn', hm']
      refine get_pairs ?_
      rw [missing, missing']
      exact .none
    · refine pool_pairs_of hg ht hst (by simp [pool?, hn, hc]) (by simp [pool?, hn', hc']) twins.pool
        (fun v hv => ?_) fun _ _ u v _ _ built built' huv hpq => ?_
      · cases target with
        | none => exact .inl rfl
        | some target =>
          rw [hv] at hr
          refine .inr fun h => hr ⟨hst.named (name, c) (mem_of_lookup hc) h.1, h.2⟩
      · have hasher : u.hasher = s.hasher := by rw [built.same]
        exact huv.putProviderPool (by rw [built.same, hn]) (by rw [built'.same, hn']) (by rw [built.same, hc])
          (by rw [built'.same, hc']) (hasher ▸ twins) (hasher ▸ hpq)
  · refine pool_pairs_of hg ht hst (by simp [pool?, hp]) (by simp [pool?, hq]) hpq (fun v _ => .inr fun h => h.1)
      fun _ _ u v _ _ built built' huv hpq => ?_
    have hasher : u.hasher = s.hasher := by rw [built.same]
    exact huv.putPool (by rw [built.same, hp]) (by rw [built'.same, hq]) (hasher ▸ hpq)

end Session

end CodeModel
