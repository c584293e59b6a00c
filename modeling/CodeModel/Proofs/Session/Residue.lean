import CodeModel.Proofs.Interning.Gains
import CodeModel.Proofs.Interning.Residue
import CodeModel.Proofs.Session.Bystanders

namespace CodeModel

namespace Session

variable {σ τ : Store} {s t u : Session} {p r : String} {q q' : Provider} {st : Step} {i j f : Item} {v : Work}
  {h : Hasher} {before ls ms : List Item}

def leftover (h : Hasher) (q : Provider) (before : List Item) : Set Item :=
  {v | v ∉ q.stock h ∧ ∃ c : Item, c.preorder <:+: before ∧ c.bare = v}

/-- What a call on item `i` that item `f` stopped left in the tables of provider `q`, which is `q'` now. The items that
it came to before `f` are those of the row `before`. -/
structure Residue (h : Hasher) (q q' : Provider) (i f : Item) (before : List Item) : Prop where
  once : ∀ v ∈ leftover h q before, v.IsEntity ∨ v.IsFullList → ∃! b, q'.Canonical h b ∧ b.bare = v
  only : ∀ b, b.IsModel → b.IsEntity ∨ b.IsFullList → q'.Canonical h b →
    q.Canonical h b ∨ b.bare ∈ leftover h q before
  entities : (q'.stats.entities : ℕ∞) = q.stats.entities + {v ∈ leftover h q before | v.IsEntity}.encard
  lists : (q'.stats.lists : ℕ∞) = q.stats.lists + {v ∈ leftover h q before | v.IsFullList}.encard
  above : ∀ a b, Item.Within a i → Item.Within f a → q'.Canonical h b → ¬ a.SameObject b

section Stock

def Restocked (h : Hasher) (q q' : Provider) (before : List Item) : Prop :=
  ∀ v, (v.IsEntity ∨ v.IsList) → (v ∈ q'.stock h ↔ v ∈ q.stock h ∨ v ∈ leftover h q before)

lemma restocked_of_whole (stock : q'.stock h = q.stock h ∪ {v | ∃ a ∈ ls, v ∈ a.values})
    (whole : ∀ c : Item, c.preorder <:+: before ↔ ∃ a ∈ ls, Item.Within c a) : Restocked h q q' before := by
  intro v hv
  have values : (∃ a ∈ ls, v ∈ a.values) ↔ ∃ c : Item, c.preorder <:+: before ∧ c.bare = v := by
    constructor
    · rintro ⟨a, ha, c, hc, -, rfl⟩
      exact ⟨c, (whole c).mpr ⟨a, ha, hc⟩, rfl⟩
    · rintro ⟨c, hc, rfl⟩
      obtain ⟨a, ha, hc⟩ := (whole c).mp hc
      refine ⟨a, ha, c, hc, fun d hd => ?_, rfl⟩
      rw [hd] at hv
      exact hv.elim id id
  rw [stock, Set.mem_union, Set.mem_ofPred_eq, values, leftover, Set.mem_ofPred_eq]
  tauto

lemma Restocked.gained {sort : Item → Prop} (hr : Restocked h q q' before)
    (hs : ∀ v, sort v → v.IsEntity ∨ v.IsList) :
    gained sort (q.stock h) (q'.stock h) = {v ∈ leftover h q before | sort v}.encard := by
  rw [CodeModel.gained]
  congr 1
  ext v
  simp only [Set.mem_ofPred_eq]
  constructor
  · rintro ⟨hv, new, old⟩
    exact ⟨((hr v (hs v hv)).mp new).resolve_left old, hv⟩
  · rintro ⟨hl, hv⟩
    exact ⟨hv, (hr v (hs v hv)).mpr (.inr hl), hl.1⟩

lemma full_of_leftover {v : Item} (hv : v ∈ leftover h q before) : v.IsList ↔ v.IsFullList := by
  obtain ⟨new, c, -, rfl⟩ := hv
  cases c with
  | list k l =>
    refine iff_of_true trivial fun hn => new ⟨.list k l, .inl ?_, rfl⟩
    simpa [EntityList.bare] using hn
  | _ => exact .rfl

lemma eq_of_value {a b : Item} (hq : q.Sound h) (hm : a.IsModel) (ha : q.Canonical h a) (hb : q.Canonical h b)
    (value : a.bare = b.bare) (hf : a.bare.IsEntity ∨ a.bare.IsFullList) : a = b := by
  cases hq.matches_of_bare hm ha hb value with
  | refl => rfl
  | empty hl => simp [Item.IsEntity, Item.IsFullList, EntityList.bare, hl] at hf

end Stock

section Stopped

lemma label?_of_sameObject {a b : Item} {id : Nat} (h : a.SameObject b) (ha : a.label? = some id) :
    b.label? = some id := by
  obtain ⟨rfl, rfl⟩ | ⟨t, u, rfl, rfl, -⟩ | ⟨k, x, y, rfl, rfl, hid⟩ | ⟨k, l, m, rfl, rfl, -⟩ |
    ⟨d, e, rfl, rfl, hid⟩ := h.cases
  · exact ha
  · cases ha
  · exact (congrArg some hid).symm.trans ha
  · cases ha
  · exact (congrArg some hid).symm.trans ha

lemma Settles.tallies (hs : Settles s p q st r i u σ τ v j) (hq : s.providers.lookup p = some q)
    (hst : st.isCall = true) (hm : i.IsModel) : Tallies q.Settled (·.FrozenIn u.frozen) [i]
      ⟨q.stock u.hasher, q.stats, none⟩ (v.inventory u.hasher) :=
  (hs.receives hq hst).intake.tallies hm

lemma Settles.halts (hs : Settles s p q st r i u σ τ v j) (hq : s.providers.lookup p = some q)
    (hst : st.isCall = true) (hm : i.IsModel) (he : v.failure ≠ none) :
    ∃ f ls ms, Halts u.setting q.Settled v.provider f [i] [j] ls ms := by
  have ran := hs.interned hst
  have failed : ((i.intern u.setting (u.heldBeside none (some p))).run (u.work q)).2.failure ≠ none := ran ▸ he
  have stopped := i.intern_stopped (u.heldBeside none (some p)) hm (hs.work hq) hs.fits
    (fun id => (hs.good.heldBeside_iff (some p) id).mpr) rfl failed
  rwa [← ran] at stopped

lemma Settles.stops (hs : Settles s p q st r i u σ τ v j) (hq : s.providers.lookup p = some q)
    (hst : st.isCall = true) (hm : i.IsModel) (halts : Halts u.setting q.Settled v.provider f [i] [j] ls ms) :
    v.failure = some (.preparedAfterFreeze f.kindName) ∧
      v.provider.stock u.hasher = q.stock u.hasher ∪ {v | ∃ a ∈ ls, v ∈ a.values} := by
  have sound : q.Sound u.hasher := (hs.work hq).sound
  have tallies := hs.tallies hq hst hm
  exact halts.tallies tallies rfl (fun i hi => sound.values_subset hi.canonical) fun i hi a => sound.settled_within hi

lemma Settles.above (hs : Settles s p q st r i u σ τ v j) (halts : Halts u.setting q.Settled v.provider f [i] [j] ls ms)
    {a b : Item} (ha : Item.Within a i) (hf : Item.Within f a) (hb : v.provider.Canonical u.hasher b) :
    ¬ a.SameObject b := by
  intro same
  obtain ⟨j', hj', d, hd, remains, hfd⟩ := halts.above (List.mem_singleton_self i) ha hf
  obtain rfl : j' = j := List.mem_singleton.mp hj'
  obtain ⟨⟨id, hlabel, -⟩, -, uncanonical⟩ := halts.stopper
  have fitsD : τ.Fits d := (hs.rewrite.fits j' (by simp)).within hd
  have fitsB : τ.Fits b := hb.fits hs.rewrite.good.fits
  have notD : d ≠ b := fun he => uncanonical (hs.rewrite.good.sound.canonical_within hb (he ▸ hfd))
  cases hl : a.label? with
  | some id =>
    have known := fitsD.object (.refl d) (remains.label.trans hl)
    have known' := fitsB.object (.refl b) (label?_of_sameObject same hl)
    exact notD (Option.some.inj (known.symm.trans known'))
  | none =>
    obtain rfl := remains.unlabelled hl
    cases Store.matches_of_sameObject fitsD fitsB same with
    | refl => exact notD rfl
    | empty hn =>
      rcases Item.within_iff.mp hf with rfl | ⟨p, hp, -⟩
      · cases hlabel
      · simp [hn] at hp

lemma mem_before {before after : List Item} {c : Item} (split : i.preorder = before ++ f :: after)
    (hc : c.preorder <:+: before) : Item.Within c i := by
  apply Item.mem_preorder.mp
  rw [split, List.mem_append]
  exact .inl (hc.subset (Item.mem_preorder.mpr (.refl c)))

theorem Settles.residue (hs : Settles s p q st r i u σ τ v j) (hq : s.providers.lookup p = some q)
    (hst : st.isCall = true) (hm : i.IsModel) (halts : Halts u.setting q.Settled v.provider f [i] [j] ls ms)
    {after : List Item} (split : i.preorder = before ++ f :: after)
    (whole : ∀ c : Item, c.preorder <:+: before ↔ ∃ a ∈ ls, Item.Within c a) :
    Residue u.hasher q v.provider i f before := by
  have restocked := restocked_of_whole (hs.stops hq hst hm halts).2 whole
  have gains := (hs.tallies hq hst hm).gains
  have sound : v.provider.Sound u.hasher := hs.rewrite.good.sound
  have grows : q.Grows u.hasher v.provider := hs.rewrite.grows
  refine ⟨fun w hw hsort => ?_, fun b hb hsort hc => ?_, ?_, ?_, fun a b ha hf hb => hs.above halts ha hf hb⟩
  · obtain ⟨b, hb, rfl⟩ := (restocked w (hsort.imp_right (full_of_leftover hw).mpr)).mpr (.inr hw)
    obtain ⟨-, c, hc, value⟩ := hw
    have modelC : c.IsModel := hm.within (mem_before split hc)
    have model : b.IsModel := (Item.isModel_bare b).mp (value ▸ (Item.isModel_bare c).mpr modelC)
    exact ⟨b, ⟨hb, rfl⟩, fun b' hb' => (eq_of_value sound model hb hb'.1 hb'.2.symm hsort).symm⟩
  · have full : b.bare.IsEntity ∨ b.bare.IsFullList := by
      cases b <;> simp_all [Item.IsEntity, Item.IsFullList, EntityList.bare]
    have kind : b.bare.IsEntity ∨ b.bare.IsList := by
      cases b <;> simp_all [Item.IsEntity, Item.IsFullList, Item.IsList]
    refine ((restocked b.bare kind).mp ⟨b, hc, rfl⟩).imp_left ?_
    rintro ⟨b', hb', value⟩
    rwa [eq_of_value sound hb hc (.mono grows hb') value.symm full]
  · rw [← restocked.gained fun v => .inl]
    exact gains.entities
  · have lists : {v ∈ leftover u.hasher q before | v.IsFullList} = {v ∈ leftover u.hasher q before | v.IsList} := by
      ext v
      exact and_congr_right fun hv => (full_of_leftover hv).symm
    rw [lists, ← restocked.gained fun v => .inr]
    exact gains.lists

end Stopped

section Again

lemma Calls.again (h : Calls s p st r i u) (hst : st = .intern p r ∨ st = .internOptional p r)
    (hj : t.register? r = some j) (same : i.SameObject j) :
    Calls t p st r j { t.without r with events := [] } := by
  rcases hst with rfl | rfl
  · exact .intern hj
  · cases h with
    | internOptional hi hk =>
      refine .internOptional hj ?_
      rcases hk with rfl | ⟨k, x, rfl⟩ <;> cases j <;> simp_all [Item.SameObject, Item.same?]

theorem Settles.again (hs : Settles s p q st r i u σ τ v j) (hq : s.providers.lookup p = some q)
    (h : Calls s p st r i u) (hst : st = .intern p r ∨ st = .internOptional p r) (hm : i.IsModel)
    (halts : Halts u.setting q.Settled v.provider f [i] [j] ls ms) :
    ∃ n, (step (step s st).2.2 st).1.verdict? = some (some (.preparedAfterFreeze f.kindName), n) ∧
      n.entities = v.provider.stats.entities ∧ n.lists = v.provider.stats.lists ∧
      n.strings = v.provider.stats.strings ∧ n.misses = v.provider.stats.misses ∧
      v.provider.stats.hits ≤ n.hits := by
  have call : st.isCall = true := by rcases hst with rfl | rfl <;> rfl
  have received := hs.receives hq call
  obtain ⟨failure, stock⟩ := hs.stops hq call hm halts
  have placed := hs.placed fun _ _ => by rcases hst with rfl | rfl <;> simp
  have calls := h.again hst placed (hs.same (by simp [failure]))
  have model : j.IsModel := (Item.isModel_bare j).mp (received.intake.means hm ▸ (Item.isModel_bare i).mpr hm)
  obtain ⟨t, ht⟩ : ∃ t, t = (step s st).2.2 := ⟨_, rfl⟩
  have provider := received.provider
  have leaves := hs.leaves
  have ended := hs.ended
  rw [← ht] at calls provider leaves ended ⊢
  obtain ⟨σ', τ', v', j', hs'⟩ := calls.settles ended provider
  have sound : v.provider.Sound u.hasher := hs.rewrite.good.sound
  have halts' := halts.again sound fun c hc => hc.mono (h := u.hasher) hs.rewrite.grows
  have tallies : Tallies v.provider.Settled (·.FrozenIn u.frozen) [j]
      ⟨v.provider.stock u.hasher, v.provider.stats, none⟩ (v'.inventory u.hasher) := by
    rw [← leaves.frozen, ← leaves.hasher]
    exact hs'.tallies provider call model
  obtain ⟨failure', stock'⟩ := halts'.tallies tallies rfl (fun i hi => sound.values_subset hi.canonical)
    fun i hi a => sound.settled_within hi
  have nothing : v'.provider.stock u.hasher ⊆ v.provider.stock u.hasher := by
    have added := halts.values_eq
    rw [show v'.provider.stock u.hasher = _ from stock', added, stock]
    exact Set.union_subset subset_rfl Set.subset_union_right
  obtain ⟨entities, lists, strings, misses⟩ := tallies.gains.unchanged nothing
  have verdict := hs'.leaves.verdict
  rw [show v'.failure = _ from failure'] at verdict
  exact ⟨_, verdict, entities, lists, strings, misses, tallies.gains.hits⟩

end Again

structure Failed (s : Session) (p : String) (q : Provider) (st : Step) (i : Item) (e : ModelError) (f : Item)
    (before after : List Item) (q' : Provider) : Prop where
  split : i.preorder = before ++ f :: after
  clear : ∀ b ∈ before, b.FrozenIn s.frozen → q.Canonical s.hasher b
  frozen : f.FrozenIn s.frozen
  uncanonical : ¬ q'.Canonical s.hasher f
  error : e = .preparedAfterFreeze f.kindName
  provider : (step s st).2.2.providers.lookup p = some q'
  verdict : (step s st).1.verdict? = some (some e, q'.stats)
  residue : Residue s.hasher q q' i f before
  again : ∃ n, (step (step s st).2.2 st).1.verdict? = some (some e, n) ∧ n.entities = q'.stats.entities ∧
    n.lists = q'.stats.lists ∧ n.strings = q'.stats.strings ∧ n.misses = q'.stats.misses ∧ q'.stats.hits ≤ n.hits

theorem Good.failed (hg : s.Good σ) (hq : s.providers.lookup p = some q) (h : Calls s p st r i u)
    (hst : st = .intern p r ∨ st = .internOptional p r) (hm : i.IsModel) {e : ModelError} {n : Stats}
    (fails : (step s st).1.verdict? = some (some e, n)) :
    ∃ f before after q', Failed s p q st i e f before after q' := by
  have call : st.isCall = true := by rcases hst with rfl | rfl <;> rfl
  have frozen : u.frozen = s.frozen := by
    rcases hst with rfl | rfl <;> cases h <;> rfl
  obtain ⟨σ, τ, v, j, settles⟩ := h.settles hg hq
  have hasher : u.hasher = s.hasher := settles.aside.hasher
  have failure : some e = v.failure := congrArg Prod.fst (Option.some.inj (fails.symm.trans settles.leaves.verdict))
  obtain ⟨f, ls, ms, halts⟩ := settles.halts hq call hm (by simp [← failure])
  obtain ⟨before, after, split, clear, whole⟩ := halts.preorder_split
  rw [List.flatMap_singleton] at split
  obtain ⟨hz, -, uncanonical⟩ := halts.stopper
  have error := failure.trans (settles.stops hq call hm halts).1
  rw [Option.some.injEq] at error
  refine ⟨f, before, after, v.provider, split, fun b hb hbz => ?_, frozen ▸ hz, hasher ▸ uncanonical, error,
    (settles.receives hq call).provider, failure ▸ settles.leaves.verdict,
    hasher ▸ settles.residue hq call hm halts split whole, error ▸ settles.again hq h hst hm halts⟩
  exact (clear b hb (show b.FrozenIn u.frozen from frozen.symm ▸ hbz)).canonical

/-- Of what a failing call came to before the item that stopped it, each whole new value is entered, and nothing else.
-/
theorem failed_call_residue (hasher : Hasher) (options : Options) (steps : List Step)
    (hq : ((start hasher options).after steps).providers.lookup p = some q)
    (h : Calls ((start hasher options).after steps) p st r i u) (hst : st = .intern p r ∨ st = .internOptional p r)
    (hm : i.IsModel) {e : ModelError} {n : Stats}
    (fails : (step ((start hasher options).after steps) st).1.verdict? = some (some e, n)) :
    ∃ f before after q', Failed ((start hasher options).after steps) p q st i e f before after q' := by
  obtain ⟨σ, good, -⟩ := start_good hasher options steps
  exact good.failed hq h hst hm fails

theorem failed_call_residue_list :
    let s := (start .colliding ⟨false, 0⟩).after [.bind "f" (.entity .constant (.make (.shared .null) (.plain .null))),
      .freeze "f", .bind "l" (.list .constant [.make (.shared .dynamic) (.plain .null), .register "f"])]
    let t := (step s (.intern "P" "l")).2.2
    ∃ i f before after z z', s.register? "l" = some i ∧ i.preorder = before ++ f :: after ∧ f.FrozenIn s.frozen ∧
      (step s (.intern "P" "l")).1.verdict? = some (some (.preparedAfterFreeze f.kindName), z) ∧ z.entities = 4 ∧
      (step t (.intern "P" "l")).1.verdict? = some (some (.preparedAfterFreeze f.kindName), z') ∧ z'.entities = 4 := by
  intro s t
  have bound : (s.providers.lookup "P").isSome = true := by decide +kernel
  obtain ⟨q, hq⟩ := Option.isSome_iff_exists.mp bound
  obtain ⟨i, hi, model⟩ : ∃ i, s.register? "l" = some i ∧ i.IsModel := ⟨_, rfl, rfl⟩
  have fails : ∃ e n, (step s (.intern "P" "l")).1.verdict? = some (some e, n) ∧ n.entities = 4 := ⟨_, _, rfl, rfl⟩
  obtain ⟨e, n, verdict, count⟩ := fails
  obtain ⟨f, before, after, q', failed⟩ :=
    failed_call_residue .colliding ⟨false, 0⟩ _ hq (.intern hi) (.inl rfl) model verdict
  obtain ⟨z, again, entities, -⟩ := failed.again
  have stats : q'.stats = n := congrArg Prod.snd (Option.some.inj (failed.verdict.symm.trans verdict))
  refine ⟨i, f, before, after, _, z, hi, failed.split, failed.frozen, failed.error ▸ failed.verdict, ?_,
    failed.error ▸ again, ?_⟩
  · rw [stats, count]
  · rw [entities, stats, count]

end Session

end CodeModel
