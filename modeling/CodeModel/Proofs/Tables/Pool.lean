import CodeModel.TextPool
import Mathlib.Data.List.Perm.Basic
import Mathlib.Tactic.Lemma

/-! To adopt a text fixes the handle of its spelling and leaves all others, whatever the shards. -/

namespace CodeModel.TextPool

variable (h : Hasher)

lemma find?_val {p : TextPool} {s : String} {t : Text} (ht : p.find? h s = some t) : t.val = s := by
  unfold find? at ht
  split at ht
  · rename_i he
    rw [← Option.some.inj ht]
    simpa [Text.empty] using he.symm
  · simpa using List.find?_some ht

@[simp] lemma find?_empty_text (p : TextPool) : p.find? h "" = some Text.empty := by simp [find?]

lemma find?_self {p : TextPool} {s : String} {t : Text} (ht : p.find? h s = some t) :
    p.find? h t.val = some t := by
  rw [find?_val h ht, ht]

lemma find?_empty {s : String} {t : Text} (ht : TextPool.empty.find? h s = some t) : t = Text.empty := by
  unfold find? at ht
  split at ht
  · simpa using ht.symm
  · simp [empty, Vector.get] at ht

lemma adopt_old {p : TextPool} {t u : Text} (hu : p.find? h t.val = some u) : p.adopt h t = (u, p) := by
  simp [adopt, hu]

lemma adopt_new {p : TextPool} {t : Text} (hn : p.find? h t.val = none) : (p.adopt h t).1 = t := by
  simp [adopt, hn]

lemma find?_adopt_new {p : TextPool} {t : Text} (hn : p.find? h t.val = none) (s : String) :
    (p.adopt h t).2.find? h s = if s = t.val then some t else p.find? h s := by
  have nonempty : t.val ≠ "" := by
    intro he
    simp [he] at hn
  have adopted : (p.adopt h t).2 = ⟨p.shards.set (h.shard t.val) (t :: p.shards.get (h.shard t.val))⟩ := by
    simp [adopt, hn]
  have shards (i : Fin 64) : (p.adopt h t).2.shards.get i =
      if h.shard t.val = i then t :: p.shards.get (h.shard t.val) else p.shards.get i := by
    rw [adopted]
    refine (Vector.getElem_set (h.shard t.val).isLt i.isLt).trans ?_
    simp only [Fin.ext_iff]
    rfl
  simp only [find?, shards]
  by_cases hs : s = ""
  · simp [hs, nonempty.symm]
  by_cases ht : s = t.val
  · simp [ht, nonempty]
  · by_cases hshard : h.shard t.val = h.shard s
    · simp [hs, ht, hshard, Ne.symm ht]
    · simp [hs, ht, hshard]

theorem find?_adopt (p : TextPool) (t : Text) :
    (p.adopt h t).2.find? h t.val = some (p.adopt h t).1 := by
  cases hf : p.find? h t.val with
  | some u => rw [adopt_old h hf, hf]
  | none => rw [find?_adopt_new h hf, adopt_new h hf, if_pos rfl]

lemma adopt_val (p : TextPool) (t : Text) : (p.adopt h t).1.val = t.val :=
  find?_val h (find?_adopt h p t)

lemma fetch_eq (p : TextPool) (label : Nat) (v : String) : p.fetch h label v = p.adopt h ⟨label, v⟩ := by
  cases hf : p.find? h v with
  | some t => simp [fetch, hf, adopt_old h (t := ⟨label, v⟩) hf]
  | none => simp [fetch, hf]

def texts (p : TextPool) : List Text := p.shards.toList.flatten

lemma size_eq (p : TextPool) : p.size = 1 + p.texts.length := rfl

@[simp] lemma texts_empty : TextPool.empty.texts = [] := by simp [texts, empty]

lemma mem_texts {p : TextPool} {s : String} {t : Text} (hs : s ≠ "") (ht : p.find? h s = some t) :
    t ∈ p.texts := by
  simp only [find?, String.isEmpty_iff, hs, if_false] at ht
  have shard : p.shards.get (h.shard s) ∈ p.shards.toList := by simp [Vector.get]
  exact List.mem_flatten.mpr ⟨_, shard, List.mem_of_find?_eq_some ht⟩

lemma texts_adopt_new {p : TextPool} {t : Text} (hn : p.find? h t.val = none) :
    ((p.adopt h t).2.texts).Perm (t :: p.texts) := by
  have inside : (h.shard t.val : Nat) < p.shards.toList.length := by simp
  have before : p.texts = (p.shards.toList.take (h.shard t.val)).flatten ++
      (p.shards.get (h.shard t.val) ++ (p.shards.toList.drop (h.shard t.val + 1)).flatten) := by
    rw [texts]
    conv_lhs => rw [← List.take_append_drop (h.shard t.val) p.shards.toList, List.drop_eq_getElem_cons inside]
    simp [Vector.get]
  have after : (p.adopt h t).2.texts = (p.shards.toList.take (h.shard t.val)).flatten ++
      t :: (p.shards.get (h.shard t.val) ++ (p.shards.toList.drop (h.shard t.val + 1)).flatten) := by
    simp only [adopt, hn, texts]
    rw [Vector.toList_set, List.set_eq_take_append_cons_drop, if_pos inside]
    simp
  rw [before, after]
  exact List.perm_middle

lemma size_adopt_new {p : TextPool} {t : Text} (hn : p.find? h t.val = none) :
    (p.adopt h t).2.size = p.size + 1 := by
  rw [size_eq, size_eq, (texts_adopt_new h hn).length_eq, List.length_cons, Nat.add_assoc]

structure Grows (p q : TextPool) : Prop where
  find : ∀ s t, p.find? h s = some t → q.find? h s = some t
  size : p.size ≤ q.size

structure Filed (p : TextPool) : Prop where
  found : ∀ t ∈ p.texts, t.val ≠ "" ∧ p.find? h t.val = some t
  once : p.texts.Nodup

variable {h}

lemma Grows.refl (p : TextPool) : p.Grows h p := ⟨fun _ _ ht => ht, Nat.le_refl _⟩

lemma Grows.trans {p q r : TextPool} (hpq : p.Grows h q) (hqr : q.Grows h r) : p.Grows h r :=
  ⟨fun s t ht => hqr.find s t (hpq.find s t ht), Nat.le_trans hpq.size hqr.size⟩

theorem grows_adopt (p : TextPool) (t : Text) : p.Grows h (p.adopt h t).2 := by
  cases hf : p.find? h t.val with
  | some v =>
    rw [adopt_old h hf]
    exact .refl p
  | none =>
    refine ⟨fun s u hu => ?_, ?_⟩
    · rw [find?_adopt_new h hf, if_neg, hu]
      rintro rfl
      simp [hf] at hu
    · rw [size_adopt_new h hf]
      exact Nat.le_succ _

lemma filed_empty : TextPool.empty.Filed h := ⟨by simp, by simp⟩

theorem Filed.adopt {p : TextPool} (hp : p.Filed h) (t : Text) : (p.adopt h t).2.Filed h := by
  cases hf : p.find? h t.val with
  | some v => rwa [adopt_old h hf]
  | none =>
    have perm := texts_adopt_new h hf
    refine ⟨fun u hu => ?_, perm.nodup_iff.mpr (List.nodup_cons.mpr ⟨fun ht => ?_, hp.once⟩)⟩
    · rw [find?_adopt_new h hf]
      rcases List.mem_cons.mp (perm.mem_iff.mp hu) with rfl | hu
      · refine ⟨fun he => ?_, if_pos rfl⟩
        simp [he] at hf
      · obtain ⟨nonempty, found⟩ := hp.found u hu
        refine ⟨nonempty, (if_neg fun he => ?_).trans found⟩
        simp [← he, found] at hf
    · simp [(hp.found t ht).2] at hf

lemma find?_of_adopt {p : TextPool} {t u : Text} {s : String} (hu : (p.adopt h t).2.find? h s = some u) :
    p.find? h s = some u ∨ u = t := by
  cases hf : p.find? h t.val with
  | some v => exact .inl (by rwa [adopt_old h hf] at hu)
  | none =>
    rw [find?_adopt_new h hf] at hu
    split at hu
    · exact .inr (by simpa using hu.symm)
    · exact .inl hu

lemma grows_internAll (p : TextPool) (label : Nat) (ss : List String) : p.Grows h (p.internAll h label ss) := by
  induction ss generalizing p label with
  | nil => exact .refl p
  | cons s ss ih => exact (grows_adopt p ⟨label, s⟩).trans (ih _ _)

lemma Filed.internAll {p : TextPool} (hp : p.Filed h) (label : Nat) (ss : List String) :
    (p.internAll h label ss).Filed h := by
  induction ss generalizing p label with
  | nil => exact hp
  | cons s ss ih => exact ih (hp.adopt ⟨label, s⟩) _

lemma find?_of_internAll {p : TextPool} {label : Nat} {ss : List String} {s : String} {t : Text}
    (ht : (p.internAll h label ss).find? h s = some t) :
    p.find? h s = some t ∨ ∃ q ∈ ss.zipIdx label, t = ⟨q.2, q.1⟩ := by
  induction ss generalizing p label with
  | nil => exact .inl ht
  | cons v ss ih =>
    rw [List.zipIdx_cons]
    rcases ih ht with ht | ⟨q, hq, rfl⟩
    · exact (find?_of_adopt ht).imp_right fun he => ⟨(v, label), by simp, he⟩
    · exact .inr ⟨q, by simp [hq], rfl⟩

lemma isSome_find?_adopt {p : TextPool} {t : Text} {s : String} :
    ((p.adopt h t).2.find? h s).isSome = true ↔ (p.find? h s).isSome = true ∨ s = t.val := by
  cases hf : p.find? h t.val with
  | some v =>
    rw [adopt_old h hf, iff_self_or]
    rintro rfl
    simp [hf]
  | none =>
    rw [find?_adopt_new h hf]
    split_ifs with hs <;> simp [hs]

lemma isSome_find?_internAll {p : TextPool} {label : Nat} {ss : List String} {s : String} :
    ((p.internAll h label ss).find? h s).isSome = true ↔ (p.find? h s).isSome = true ∨ s ∈ ss := by
  induction ss generalizing p label with
  | nil => simp [internAll]
  | cons v ss ih =>
    rw [internAll, ih]
    unfold intern
    rw [isSome_find?_adopt, List.mem_cons, or_assoc]

end CodeModel.TextPool
