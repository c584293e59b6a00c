import CodeModel.Proofs.Interning.Tally

/-! What lies before the item that stopped a call came through; what comes after it stays in its place. -/

namespace CodeModel

structure Came (s : Setting) (settled : Item → Prop) (q : Provider) (a b : Item) : Prop where
  clear : ∀ c, Item.Within c a → c.FrozenIn s.frozen → settled c
  value : b.bare = a.bare
  result : q.Canonical s.hasher b ∨ b = a

structure Remains (a b : Item) : Prop where
  label : b.label? = a.label?
  unlabelled : a.label? = none → b = a

lemma Remains.refl (a : Item) : Remains a a := ⟨rfl, fun _ => rfl⟩

lemma Remains.of_label {a b : Item} {id : Nat} (ha : a.label? = some id) (hb : b.label? = some id) : Remains a b where
  label := hb.trans ha.symm
  unlabelled hn := by simp [ha] at hn

/-- Item `f` stopped a call on row `is`, which left row `js` and provider `q`. The items `ls` came through before it, as
the items `ms`. -/
inductive Halts (s : Setting) (settled : Item → Prop) (q : Provider) (f : Item) :
    List Item → List Item → List Item → List Item → Prop
  | here {is : List Item} : f.FrozenIn s.frozen → ¬ settled f → ¬ q.Canonical s.hasher f →
    Halts s settled q f (f :: is) (f :: is) [] []
  | skip {a b : Item} {is js ls ms : List Item} : Came s settled q a b → Halts s settled q f is js ls ms →
    Halts s settled q f (a :: is) (b :: js) (a :: ls) (b :: ms)
  | into {a b : Item} {is ls ms : List Item} : ¬ settled a → ¬ a.FrozenIn s.frozen → Remains a b →
    Halts s settled q f a.parts b.parts ls ms → Halts s settled q f (a :: is) (b :: is) ls ms

variable {s : Setting} {settled : Item → Prop} {q q' : Provider} {f a b c i j : Item} {is js ls ms : List Item}

lemma infix_append_cases {α : Type} {x : α} {xs l m : List α} (h : x :: xs <:+: l ++ m) : x ∈ l ∨ x :: xs <:+: m := by
  induction l with
  | nil => exact .inr h
  | cons y l ih =>
    rcases List.infix_cons_iff.mp h with h | h
    · exact .inl ((List.cons_prefix_cons.mp h).1 ▸ List.mem_cons_self)
    · exact (ih h).imp_left (List.mem_cons_of_mem y)

lemma frozenIn_congr {z : Frozen} (h : b.label? = a.label?) : b.FrozenIn z ↔ a.FrozenIn z := by
  simp only [Item.FrozenIn, h]

namespace Came

lemma mono (h : Came s settled q a b) (hg : q.Grows s.hasher q') : Came s settled q' a b where
  clear := h.clear
  value := h.value
  result := h.result.imp_left fun hb => hb.mono hg

lemma left (h : Came s settled q a b) : Came s settled q a a := ⟨h.clear, rfl, .inr rfl⟩

end Came

namespace Halts

lemma within (h : Halts s settled q f is js ls ms) : ∃ b ∈ js, Item.Within f b := by
  induction h with
  | here => exact ⟨f, List.mem_cons_self, .refl f⟩
  | skip _ _ ih =>
    obtain ⟨b, hb, hf⟩ := ih
    exact ⟨b, List.mem_cons_of_mem _ hb, hf⟩
  | @into a b _ _ _ _ _ _ _ ih =>
    obtain ⟨p, hp, hf⟩ := ih
    exact ⟨b, List.mem_cons_self, .part hp hf⟩

lemma stopper (h : Halts s settled q f is js ls ms) :
    f.FrozenIn s.frozen ∧ ¬ settled f ∧ ¬ q.Canonical s.hasher f := by
  induction h with
  | here hz hs hc => exact ⟨hz, hs, hc⟩
  | skip _ _ ih => exact ih
  | into _ _ _ _ ih => exact ih

lemma given_up (h : Halts s settled q f is js ls ms) : Halts s settled q f is is ls ls := by
  induction h with
  | here hz hs hc => exact .here hz hs hc
  | skip ha _ ih => exact .skip ha.left ih
  | into hs hz _ _ ih => exact .into hs hz (.refl _) ih

lemma frame (h : Halts s settled q f [i] [j] ls ms) (rest : List Item) :
    Halts s settled q f (i :: rest) (j :: rest) ls ms := by
  cases h with
  | here hz hs hc => exact .here hz hs hc
  | skip _ h => nomatch h
  | into hs hz hl h => exact .into hs hz hl h

lemma after {as bs : List Item} (ha : List.Forall₂ (Came s settled q) as bs) (h : Halts s settled q f is js ls ms) :
    Halts s settled q f (as ++ is) (bs ++ js) (as ++ ls) (bs ++ ms) := by
  induction ha with
  | nil => exact h
  | cons ha _ ih => exact .skip ha ih

lemma values_eq (h : Halts s settled q f is js ls ms) :
    {v | ∃ b ∈ ms, v ∈ b.values} = {v | ∃ a ∈ ls, v ∈ a.values} := by
  induction h with
  | here => rfl
  | skip ha _ ih =>
    ext v
    have rest := Set.ext_iff.mp ih v
    simp only [Set.mem_ofPred_eq, List.mem_cons, exists_eq_or_imp] at rest ⊢
    rw [Item.values_congr ha.value, rest]
  | into _ _ _ _ ih => exact ih

theorem above (h : Halts s settled q f is js ls ms) (ha : a ∈ is) (hc : Item.Within c a) (hf : Item.Within f c) :
    ∃ b ∈ js, ∃ d, Item.Within d b ∧ Remains c d ∧ Item.Within f d := by
  induction h generalizing a with
  | here => exact ⟨a, ha, c, hc, .refl c, hf⟩
  | skip hcame h ih =>
    rcases List.mem_cons.mp ha with rfl | ha
    · have stop := h.stopper
      exact absurd (hcame.clear f (hf.trans hc) stop.1) stop.2.1
    · obtain ⟨b, hb, d, hd⟩ := ih ha hc
      exact ⟨b, List.mem_cons_of_mem _ hb, d, hd⟩
  | @into i j _ _ _ _ _ hl h ih =>
    rcases List.mem_cons.mp ha with rfl | ha
    · rcases Item.within_iff.mp hc with rfl | ⟨p, hp, hc⟩
      · obtain ⟨p, hp, hfp⟩ := h.within
        exact ⟨j, List.mem_cons_self, j, .refl j, hl, .part hp hfp⟩
      · obtain ⟨b, hb, d, hd, hdl⟩ := ih hp hc
        exact ⟨j, List.mem_cons_self, d, .part hb hd, hdl⟩
    · exact ⟨a, List.mem_cons_of_mem _ ha, c, hc, .refl c, hf⟩

theorem preorder_split (h : Halts s settled q f is js ls ms) : ∃ before after,
    is.flatMap Item.preorder = before ++ f :: after ∧ (∀ b ∈ before, b.FrozenIn s.frozen → settled b) ∧
      ∀ c, c.preorder <:+: before ↔ ∃ a ∈ ls, Item.Within c a := by
  induction h with
  | @here is =>
    refine ⟨[], f.parts.flatMap Item.preorder ++ is.flatMap Item.preorder, ?_, by simp, fun c => ?_⟩
    · rw [List.flatMap_cons, Item.preorder_eq f]
      rfl
    · rw [Item.preorder_eq c]
      simp
  | @skip a b is js ls ms ha _ ih =>
    obtain ⟨before, after, split, clear, whole⟩ := ih
    refine ⟨a.preorder ++ before, after, ?_, fun c hc hz => ?_, fun c => ?_⟩
    · rw [List.flatMap_cons, split, List.append_assoc]
    · rcases List.mem_append.mp hc with hc | hc
      · exact ha.clear c (Item.mem_preorder.mp hc) hz
      · exact clear c hc hz
    · simp only [List.mem_cons, exists_eq_or_imp, ← whole c]
      constructor
      · intro hc
        rw [Item.preorder_eq c] at hc ⊢
        exact (infix_append_cases hc).imp_left Item.mem_preorder.mp
      · rintro (hc | hc)
        · exact (Item.preorder_infix hc).trans (List.prefix_append _ _).isInfix
        · exact hc.trans (List.suffix_append _ _).isInfix
  | @into a b is ls ms _ hz _ _ ih =>
    obtain ⟨before, after, split, clear, whole⟩ := ih
    refine ⟨a :: before, after ++ is.flatMap Item.preorder, ?_, fun c hc hzc => ?_, fun c => ?_⟩
    · rw [List.flatMap_cons, Item.preorder_eq a, split]
      simp
    · rcases List.mem_cons.mp hc with rfl | hc
      · exact absurd hzc hz
      · exact clear c hc hzc
    · rw [← whole c, List.infix_cons_iff]
      refine or_iff_right fun hp => ?_
      -- all that lies within `a` does not fit before the stopper, which is one of it
      rw [Item.preorder_eq c, List.cons_prefix_cons] at hp
      obtain ⟨rfl, hp⟩ := hp
      have length := hp.length_le
      rw [split, List.length_append, List.length_cons] at length
      omega

variable {I J : Inventory}

lemma cons_split (h : Tallies settled (·.FrozenIn s.frozen) (i :: is) I J) :
    ∃ K, Tallies settled (·.FrozenIn s.frozen) [i] I K ∧ Tallies settled (·.FrozenIn s.frozen) is K J := by
  cases h with
  | failed hf => exact ⟨I, .failed hf, .failed hf⟩
  | settled hf hs rest => exact ⟨I, .settled hf hs (.nil I), rest⟩
  | frozen hf hs hz => exact ⟨_, .frozen hf hs hz, .failed rfl⟩
  | visit hf hs hz parts rest => exact ⟨_, .visit hf hs hz parts (.nil _), rest⟩

theorem tallies (h : Halts s settled q f is js ls ms) (ht : Tallies settled (·.FrozenIn s.frozen) is I J)
    (hf : I.failure = none) (known : ∀ i, settled i → i.values ⊆ I.stock)
    (deep : ∀ i, settled i → ∀ a, Item.Within a i → a.FrozenIn s.frozen → settled a) :
    J.failure = some (.preparedAfterFreeze f.kindName) ∧ J.stock = I.stock ∪ {v | ∃ a ∈ ls, v ∈ a.values} := by
  induction h generalizing I J with
  | here hz hs =>
    cases ht with
    | failed hf' => simp [hf] at hf'
    | settled _ hs' => exact absurd hs' hs
    | frozen => simp [Inventory.fail]
    | visit _ _ hz' => exact absurd hz hz'
  | skip ha _ ih =>
    obtain ⟨K, first, rest⟩ := cons_split ht
    have calm : K.failure = none := by
      rw [first.failure deep, hf, Option.none_or]
      exact obstacle_eq_none_iff.mpr ha.clear
    have stock := first.stock calm known
    simp only [List.mem_singleton, exists_eq_left, Set.ofPred_mem_eq] at stock
    obtain ⟨failure, total⟩ := ih rest calm fun i hi => (known i hi).trans (stock ▸ Set.subset_union_left)
    refine ⟨failure, ?_⟩
    rw [total, stock]
    ext v
    simp only [Set.mem_union, Set.mem_ofPred_eq, List.mem_cons, exists_eq_or_imp, or_assoc]
  | into hs hz _ _ ih =>
    cases ht with
    | failed hf' => simp [hf] at hf'
    | settled _ hs' => exact absurd hs' hs
    | frozen _ _ hz' => exact absurd hz' hz
    | visit _ _ _ parts rest =>
      obtain ⟨failure, stock⟩ := ih parts hf known
      have failed := Option.isSome_iff_exists.mpr ⟨_, failure⟩
      rw [Inventory.visit_failed failed] at rest
      rw [rest.of_failed failed]
      exact ⟨failure, stock⟩

theorem again (h : Halts s settled q f is js ls ms) (hq : q.Sound s.hasher)
    (hs : ∀ c, settled c → q.Settled c) : Halts s q.Settled q f js js ms ms := by
  induction h with
  | here hz _ hc => exact .here hz (fun h => hc h.canonical) hc
  | skip ha _ ih =>
    refine .skip ⟨fun c hc hz => ?_, rfl, .inr rfl⟩ ih
    rcases ha.result with hb | rfl
    · exact .of_canonical (hq.canonical_within hb hc) hz
    · exact hs c (ha.clear c hc hz)
  | into _ hz hl h ih =>
    refine .into (fun hb => ?_) ((frozenIn_congr hl.label).not.mpr hz) (.refl _) ih
    obtain ⟨p, hp, hf⟩ := h.within
    exact h.stopper.2.2 (hq.canonical_within hb.canonical (.part hp hf))

end Halts

end CodeModel
