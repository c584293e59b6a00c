import CodeModel.Proofs.Interning.Settling

namespace CodeModel

open Interning

variable {h : Hasher} {p q : Provider} {s : Setting} {keep : Nat → Prop} {held : Held} {σ : Store} {w : Work} {k : Kind}
  {x y : Handle k.Carrier} {i : Item} {is js done rest : List Item} {id : Nat}

def Entered (h : Hasher) (q : Provider) (k : Kind) (x : Handle k.Carrier) (id : Nat) : Prop :=
  ∃ o, Prepared h q k x.val o ∧ (Kind.protocol h).Stands q.entities o id

lemma Entered.of_entry (hq : q.Sound h) (hx : q.HasEntry k x) : Entered h q k x x.id := by
  refine ⟨x.val, ⟨rfl, fun i => hq.canonical_part (i := .entity k x) hx, Rewrite.means_refl _⟩, ?_⟩
  obtain ⟨e, he, rfl⟩ := hx
  exact ⟨e, he, rfl, (Kind.protocol_lawful h).refl _⟩

lemma Entered.mono (hx : Entered h p k x id) (hg : p.Grows h q) (hr : (Kind.protocol h).Run p.entities q.entities) :
    Entered h q k x id := by
  obtain ⟨o, prepared, stands⟩ := hx
  exact ⟨o, prepared.mono hg, hr.stands (Kind.protocol_lawful h) stands⟩

lemma Provider.Interns.entered {n : Nat} (hp : (Kind.protocol h).Filed p.entities) (hx : p.Interns h n x y q) :
    Entered h q k x y.id := by
  obtain ⟨o, -, prepared, interns⟩ := hx
  exact ⟨o.val, prepared, interns.stands (Kind.protocol_lawful h) hp⟩

def Item.Enters (h : Hasher) (q : Provider) (i j : Item) : Prop :=
  ∀ (k : Kind) (x : Handle k.Carrier), i = .entity k x → ∃ y, j = .entity k y ∧ Entered h q k x y.id

lemma Item.Enters.mono {j : Item} (hi : i.Enters h p j) (hg : p.Grows h q)
    (hr : (Kind.protocol h).Run p.entities q.entities) : i.Enters h q j := by
  intro k x hx
  obtain ⟨y, hy, entered⟩ := hi k x hx
  exact ⟨y, hy, entered.mono hg hr⟩

lemma Item.enters_entity : (Item.entity k x).Enters h q (.entity k y) ↔ Entered h q k x y.id := by
  constructor
  · intro hx
    obtain ⟨z, hz, entered⟩ := hx k x rfl
    cases hz
    exact entered
  · intro entered l z hz
    cases hz
    exact ⟨y, rfl, entered⟩

structure Entering (s : Setting) (keep : Nat → Prop) (σ : Store) (w : Work) (is done rest : List Item) (v : Work) :
    Prop where
  row : Row s keep σ w is done rest v
  entered : v.failure = none → ∃ before, is = before ++ rest ∧
    List.Forall₂ (Item.Enters s.hasher v.provider) before done

lemma entering_start (hw : w.Good s.hasher σ) (hf : ∀ i ∈ is, σ.Fits i) : Entering s keep σ w is [] is w :=
  ⟨row_start hw hf, fun _ => ⟨[], rfl, .nil⟩⟩

lemma Entering.all {v : Work} (hr : Entering s keep σ w is done [] v) (hf : v.failure = none) :
    List.Forall₂ (Item.Enters s.hasher v.provider) is done := by
  obtain ⟨before, rfl, entered⟩ := hr.entered hf
  rwa [List.append_nil]

lemma sealList_tables (items : List (Handle k.Carrier)) :
    w.provider.Grows s.hasher ((sealList s k items).run w).2.provider ∧
      ((sealList s k items).run w).2.provider.entities = w.provider.entities := by
  cases found : w.provider.findList? s.hasher k items with
  | some r =>
    rw [sealList_run_found found]
    exact ⟨Provider.grows_hit _ _, rfl⟩
  | none =>
    rw [sealList_run_new found]
    exact ⟨(Provider.grows_recordList _ _ k _ items).trans (Provider.grows_miss _ _), rfl⟩

section Passes

variable {outer : Held} (filed : (Kind.protocol s.hasher).Filed w.provider.entities)

include filed

theorem entering_slot {α : Type} {act : Interning α} {item : α → Item}
    (slot : ∀ τ v, v.Good s.hasher τ → (∀ p ∈ done ++ rest, τ.Fits p) → τ.Fits i →
      Replaces s (fun id => keep id ∨ LabelsAny (done ++ rest) id) act item τ v i)
    (enters : ∀ τ v, v.Good s.hasher τ → τ.Fits i → (Kind.protocol s.hasher).Filed v.provider.entities →
      v.failure = none → (act.run v).2.failure = none → i.Enters s.hasher (act.run v).2.provider (item (act.run v).1)) :
    act.Sends (Entering s keep σ w is done (i :: rest)) (fun a => Entering s keep σ w is (done ++ [item a]) rest) := by
  intro v entering
  refine ⟨sends_slot slot v entering.row, fun hf => ?_⟩
  obtain ⟨τ, hr, -⟩ := entering.row
  have fits : τ.Fits i := hr.fits i (by simp)
  obtain ⟨υ, hslot, -⟩ := slot τ v hr.good (fun p hp => hr.fits p (by grind)) fits
  have calm := hslot.calm hf
  obtain ⟨before, rfl, entered⟩ := entering.entered calm
  have filed' := hr.tables.filed (Kind.protocol_lawful s.hasher) filed
  exact ⟨before ++ [i], by simp, List.rel_append (entered.imp fun _ _ hi => hi.mono hslot.grows hslot.tables)
    (.cons (enters τ v hr.good fits filed' calm hf) .nil)⟩

lemma entering_passes (hk : ∀ id, keep id → outer id = true) :
    Passes s outer (fun _ => True) (Entering s keep σ w is) where
  nothing {done rest v} hv := by
    refine ⟨hv.row.nothing, fun hf => ?_⟩
    obtain ⟨before, rfl, entered⟩ := hv.entered hf
    exact ⟨before ++ [.nothing], by simp, List.rel_append entered (.cons (by simp [Item.Enters]) .nil)⟩
  text t := entering_slot filed (fun _ _ hv _ ht => poolText_replaces t hv ht) fun _ _ _ _ _ _ _ => by
    simp [Item.Enters]
  list {_ _ k l} _ := entering_slot filed (fun τ v hv _ hl => replaceable s (.list k l) _ τ v hv hl)
    fun _ _ _ _ _ _ _ => by simp [Item.Enters]
  entity {_ _ k x _} _ hheld := entering_slot filed
    (fun τ v hv hp hx => replaceable s (.entity k x) _ _ τ v hv hx fun id hid =>
      (hheld τ hp id).mpr (hid.imp_left (hk id)))
    fun τ v hv hx hq hf he => Item.enters_entity.mpr ((Kind.intern_interns hv hx hf he).entered hq)

variable (hw : w.Good s.hasher σ)

include hw

lemma elements_entered (xs : List (Handle k.Carrier)) (hxs : ∀ x ∈ xs, σ.Fits (.entity k x))
    (he : ((xs.mapM (k.intern s .everything)).run w).2.failure = none) :
    List.Forall₂ (fun x y => Entered s.hasher ((xs.mapM (k.intern s .everything)).run w).2.provider k x y.id) xs
      ((xs.mapM (k.intern s .everything)).run w).1 := by
  have passes : Passes s .everything _ (Entering s (fun _ => True) σ w (xs.map (.entity k))) :=
    entering_passes filed fun _ _ => rfl
  have ends := sends_elements passes xs (fun _ _ => trivial) w (entering_start hw (by simpa using hxs))
  simpa only [List.forall₂_map_left_iff, List.forall₂_map_right_iff, Item.enters_entity] using ends.all he

lemma Kind.prepare_entered {v : k.Carrier} (hv : ∀ i ∈ k.parts v, σ.Fits i)
    (he : ((k.prepare s held v).run w).2.failure = none) :
    List.Forall₂ (Item.Enters s.hasher ((k.prepare s held v).run w).2.provider) (k.parts v)
      (k.parts ((k.prepare s held v).run w).1) := by
  have passes : Passes s held _ (Entering s (fun _ => False) σ w (k.parts v)) := entering_passes filed fun _ => False.elim
  obtain ⟨ends, -⟩ := prepare_sends passes k v (fun _ _ => trivial) w (entering_start hw hv)
  exact ends.all he

theorem Kind.internList_entered {l : EntityList k.Carrier} (hl : σ.Fits (.list k l)) (hf : w.failure = none)
    (he : ((k.internList s l).run w).2.failure = none) :
    List.Forall₂ (fun x y => Entered s.hasher ((k.internList s l).run w).2.provider k x y.id) l.items
      ((k.internList s l).run w).1.items := by
  unfold Kind.internList at he ⊢
  by_cases hdone : l.items = [] ∨ w.provider.isCanonicalList s.hasher k l = true
  · rw [canonicalizeList_run_done hf hdone]
    refine List.forall₂_same.mpr fun x hx => .of_entry hw.sound ?_
    have canonical : w.provider.Canonical s.hasher (.list k l) := hdone.elim .inl fun hc =>
      Provider.canonical_of_isCanonicalList hw.sound hw.fits hl hc
    exact hw.sound.canonical_part (j := .entity k x) canonical (List.mem_map_of_mem hx)
  · rw [canonicalizeList_run_elements hf hdone] at he ⊢
    obtain ⟨τ, hr, -⟩ := sends_elements (row_passes fun _ (_ : True) => rfl) l.items
      (fun x _ => replaceable s _) w (row_start hw fun _ => hl.part)
    rw [List.append_nil] at hr
    rw [run_unlessFailed] at he ⊢
    split at he
    next hv => rw [Option.isSome_iff_ne_none] at hv; exact absurd he hv
    next hv =>
      have entered := elements_entered filed hw l.items (fun x hx => hl.element hx) (by simpa using hv)
      rw [if_neg hv, sealList_items hr.good fun x hx => hr.fits _ (List.mem_map_of_mem hx)]
      generalize (l.items.mapM (k.intern s .everything)).run w = r at entered ⊢
      obtain ⟨grows, entities⟩ := sealList_tables (s := s) (k := k) (w := r.2) r.1
      exact entered.imp fun x y hx => hx.mono grows (entities ▸ .refl)

end Passes

end CodeModel
