import CodeModel.Proofs.Graph.Lists
import CodeModel.Proofs.Interning.Gains
import CodeModel.Proofs.Interning.Relisting
import CodeModel.Proofs.Interning.Runs

namespace CodeModel

namespace Definition

lemma lists_subset (d : Handle Definition) : (Item.definition d).lists ⊆ d.val.parts := List.filter_subset_self _

lemma lists_bare {d e : Handle Definition} (h : (Item.definition d).bare = (Item.definition e).bare) :
    (Item.definition d).lists.map Item.bare = (Item.definition e).lists.map Item.bare := by
  have value (d : Handle Definition) :
      (Item.definition d).lists.map Item.bare = (Item.definition d).bare.parts.filter Item.isList := by
    have kept : Item.isList ∘ Item.bare = Item.isList := by
      funext i
      cases i <;> rfl
    rw [Item.parts_bare, List.filter_map, kept]
    rfl
  rw [value, value, h]

lemma within_lists {d : Handle Definition} {a : Item} (h : Item.Within a (.definition d)) :
    a = .definition d ∨ (∃ l ∈ (Item.definition d).lists, Item.Within a l) ∨ a = .nothing ∨ ∃ t, a = .text t := by
  rcases Item.within_iff.mp h with rfl | ⟨m, hm, ha⟩
  · exact .inl rfl
  simp only [Item.parts_definition, parts, List.mem_cons, List.not_mem_nil, or_false] at hm
  rcases hm with rfl | rfl | rfl | rfl | rfl | rfl
  · exact .inr (.inr (.inr ⟨_, ha.eq_of_leaf rfl⟩))
  · exact .inr (.inr (.inr ⟨_, ha.eq_of_leaf rfl⟩))
  · exact .inr (.inl ⟨_, by simp [Item.lists_definition], ha⟩)
  · exact .inr (.inl ⟨_, by simp [Item.lists_definition], ha⟩)
  · exact .inr (.inl ⟨_, by simp [Item.lists_definition], ha⟩)
  · cases hf : d.val.region.file with
    | none =>
      rw [Region.part, hf] at ha
      exact .inr (.inr (.inl (ha.eq_of_leaf rfl)))
    | some f =>
      rw [Region.part, hf] at ha
      exact .inr (.inr (.inr ⟨f, ha.eq_of_leaf rfl⟩))

lemma mem_values_lists {d : Handle Definition} {v : Item} (h : v ∈ (Item.definition d).values)
    (hv : v.IsEntity ∨ v.IsList) : ∃ l ∈ (Item.definition d).lists, v ∈ l.values := by
  obtain ⟨a, ha, hd, rfl⟩ := h
  rcases within_lists ha with rfl | ⟨l, hl, ha⟩ | rfl | ⟨t, rfl⟩
  · exact absurd rfl (hd d)
  · exact ⟨l, hl, a, ha, hd, rfl⟩
  · exact hv.elim False.elim False.elim
  · exact hv.elim False.elim False.elim

end Definition

section Again

variable {s : Setting} {w : Work} {k : Kind}

lemma run_bind_of {α β : Type} {act : Interning α} {next : α → Interning β} {a : α} {v : Work} (h : act.run w = (a, v)) :
    (act >>= next).run w = (next a).run v := by
  rw [StateT.run_bind, h]
  rfl

lemma poolText_canonical {t : Text} (hf : w.failure = none) (ht : w.provider.Canonical s.hasher (.text t)) :
    (poolText s t).run w = (t, w) := by
  rw [poolText_run t hf, TextPool.adopt_old s.hasher ht]

lemma internList_canonical {l : EntityList k.Carrier} (hf : w.failure = none) (hp : w.provider.Sound s.hasher)
    (hl : w.provider.Canonical s.hasher (.list k l)) : (k.internList s l).run w = (l, w) :=
  canonicalizeList_run_done hf (hp.passes_list hl)

lemma poolRegion_canonical {r : Region} (hf : w.failure = none) (hr : w.provider.Canonical s.hasher r.part) :
    (poolRegion s r).run w = (r, w) := by
  obtain ⟨_ | f, b, e⟩ := r
  · rfl
  · have pooled : (poolText s f).run w = (f, w) := poolText_canonical hf hr
    exact run_bind_of pooled

theorem Definition.internParts_canonical {d : Definition} (hf : w.failure = none) (hp : w.provider.Sound s.hasher)
    (hd : ∀ m ∈ d.parts, w.provider.Canonical s.hasher m) : (d.internParts s).run w = (d, w) := by
  simp only [parts, List.mem_cons, List.not_mem_nil, or_false, forall_eq_or_imp, forall_eq] at hd
  obtain ⟨ns, name, bases, methods, attributes, region⟩ := hd
  rw [internParts, run_bind_of (poolText_canonical hf ns), run_bind_of (poolText_canonical hf name),
    run_bind_of (internList_canonical hf hp bases), run_bind_of (internList_canonical hf hp methods),
    run_bind_of (internList_canonical hf hp attributes), run_bind_of (poolRegion_canonical hf region)]
  rfl

theorem internMembers_canonical {d : Handle Definition} (hf : w.failure = none) (hp : w.provider.Sound s.hasher)
    (hd : ∀ m ∈ d.val.parts, w.provider.Canonical s.hasher m) :
    ∃ es, (Definition.internMembers s d).run w = (d, { w with
      events := es
      failure := if d.id ∈ s.frozen then some (.preparedAfterFreeze Definition.kindName) else none }) := by
  by_cases hz : d.id ∈ s.frozen
  · refine ⟨w.events, ?_⟩
    rw [internMembers_run_frozen hz, if_pos hz]
  · refine ⟨w.events ++ [.interned w.provider.number d.val.fullName d.val.methods.length], ?_⟩
    rw [internMembers_run hz, Definition.internParts_canonical hf hp hd, unlessFailed_run hf, if_neg hz, ← hf]
    rfl

end Again

end CodeModel
