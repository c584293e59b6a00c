import CodeModel.Proofs.Graph.Bare
import CodeModel.Proofs.Text.Reading

/-! A type is written as a word, perhaps with arguments, and then array brackets and marks of references. -/

namespace CodeModel

open Text

def IsTypeMark (c : Char) : Prop := c ∈ ['<', '>', '[', ']', '&', ',', '?', ' ']

/-- A name and a namespace that can be told apart, and from what stands around them. -/
structure Spells (ns name : String) : Prop where
  nonempty : name ≠ ""
  space : ∀ c ∈ ns.toList, ¬ IsTypeMark c
  own : ∀ c ∈ name.toList, ¬ IsTypeMark c
  dotless : '.' ∉ name.toList

namespace TypeRef

/-- Types whose names keep to themselves: none looks like a part of another type, or like one of the built-in types. -/
inductive Spellable : TypeRef → Prop
  | unknown : Spellable .unknown
  | null : Spellable .null
  | dynamic : Spellable .dynamic
  | named {ns name : Text} {args : EntityList TypeRef} (spells : Spells ns.val name.val)
      (fresh : ns.val = "" → args.items = [] → name.val ≠ "null" ∧ name.val ≠ "dynamic")
      (arguments : ∀ x ∈ args.items, Spellable x.val) : Spellable (.named ns name args)
  | array {e : Handle TypeRef} (rank : UInt32) (element : Spellable e.val) : Spellable (.ofElement e rank)
  | byRef {e : Handle TypeRef} (element : Spellable e.val) : Spellable (.byRef e)

inductive Suffix where
  | array (rank : UInt32) (pos : rank ≠ 0)
  | byRef

namespace Suffix

def text : Suffix → List Char
  | array rank _ => (brackets rank).toList
  | byRef => ['&']

def apply (t : TypeRef) : Suffix → TypeRef
  | array rank _ => .array ⟨0, t⟩ rank
  | byRef => .byRef ⟨0, t⟩

lemma text_array (rank : UInt32) (pos : rank ≠ 0) :
    (array rank pos).text = '[' :: (List.replicate (rank.toNat - 1) ',' ++ [']']) := by
  simp [text, brackets]

theorem unique (x y : Suffix) (r s : List Char) (h : x.text ++ r = y.text ++ s) : x = y ∧ r = s := by
  cases x with
  | byRef =>
    cases y with
    | byRef => exact ⟨rfl, (List.cons.inj h).2⟩
    | array rank pos =>
      rw [text_array] at h
      exact absurd (List.cons.inj h).1 (by decide)
  | array rank pos =>
    rw [text_array] at h
    cases y with
    | byRef => exact absurd (List.cons.inj h).1 (by decide)
    | array rank' pos' =>
      rw [text_array] at h
      have inner : List.replicate (rank.toNat - 1) ',' ++ ']' :: r =
          List.replicate (rank'.toNat - 1) ',' ++ ']' :: s := by simpa using h
      obtain ⟨commas, rest⟩ := word_unique (p := (· = ',')) (fun c hc => List.eq_of_mem_replicate hc)
        (fun c hc => List.eq_of_mem_replicate hc) (by simp) (by simp) inner
      have ranks : rank.toNat = rank'.toNat := by
        have := congrArg List.length commas
        have : rank.toNat ≠ 0 := fun h => pos (UInt32.toNat_inj.mp h)
        have : rank'.toNat ≠ 0 := fun h => pos' (UInt32.toNat_inj.mp h)
        simp only [List.length_replicate] at *
        omega
      obtain rfl := UInt32.toNat_inj.mp ranks
      exact ⟨rfl, (List.cons.inj rest).2⟩

end Suffix

def Closes (r : List Char) : Prop := ∀ c ∈ r.head?, c = ',' ∨ c = '>'

def Continues (r : List Char) : Prop := ∀ c ∈ r.head?, c = '[' ∨ c = '&' ∨ c = ',' ∨ c = '>'

lemma closes_of_endsElement {r : List Char} (h : EndsElement '>' r) : Closes r := by
  intro c hc
  rcases h with h | h
  · exact .inl (Option.some.inj (hc.symm.trans h))
  · exact .inr (Option.some.inj (hc.symm.trans h))

lemma suffixes_continue {r : List Char} (hr : Closes r) (xs : List Suffix) :
    Continues (xs.flatMap Suffix.text ++ r) := by
  intro c hc
  cases xs with
  | nil => exact .inr (.inr (hr c hc))
  | cons x xs =>
    cases x with
    | byRef => exact .inr (.inl (Option.some.inj hc).symm)
    | array rank pos =>
      rw [List.flatMap_cons, Suffix.text_array] at hc
      exact .inl (Option.some.inj hc).symm

lemma suffixes_unique {xs ys : List Suffix} {r s : List Char} (hr : Closes r) (hs : Closes s)
    (h : xs.flatMap Suffix.text ++ r = ys.flatMap Suffix.text ++ s) : xs = ys ∧ r = s := by
  refine flatMap_unique Suffix.unique (fun x r hc => ?_) hr hs h
  cases x with
  | byRef => simpa using hc '&' rfl
  | array rank pos =>
    rw [Suffix.text_array] at hc
    simpa using hc '[' rfl

section Words

def qualified (ns name : String) : String := (if ns.isEmpty then "" else ns ++ ".") ++ name

variable {ns name ns' name' : String}

lemma toList_qualified (ns name : String) :
    (qualified ns name).toList = (if ns.toList = [] then [] else ns.toList ++ ['.']) ++ name.toList := by
  unfold qualified
  by_cases h : ns = ""
  · simp [h]
  · simp [h, String.toList_eq_nil_iff]

lemma qualified_isWord (h : Spells ns name) : ∀ c ∈ (qualified ns name).toList, ¬ IsTypeMark c := by
  intro c hc
  rw [toList_qualified, List.mem_append] at hc
  rcases hc with hc | hc
  · split at hc
    · simp at hc
    · rcases List.mem_append.mp hc with hc | hc
      · exact h.space c hc
      · obtain rfl := List.mem_singleton.mp hc
        simp [IsTypeMark]
  · exact h.own c hc

lemma qualified_unique (h : Spells ns name) (h' : Spells ns' name') (heq : qualified ns name = qualified ns' name') :
    ns = ns' ∧ name = name' := by
  have dots (ns : String) : ∀ c ∈ (if ns.toList = [] then [] else ns.toList ++ ['.']).reverse.head?, ¬ c ≠ '.' := by
    split <;> simp
  have dotless {name : String} (h : '.' ∉ name.toList) : ∀ c ∈ name.toList.reverse, c ≠ '.' := by
    rintro c hc rfl
    exact h (List.mem_reverse.mp hc)
  have chars := congrArg (List.reverse ∘ String.toList) heq
  simp only [Function.comp, toList_qualified, List.reverse_append] at chars
  obtain ⟨names, spaces⟩ := word_unique (dotless h.dotless) (dotless h'.dotless) (dots ns) (dots ns') chars
  refine ⟨String.toList_inj.mp ?_, String.toList_inj.mp (List.reverse_injective names)⟩
  have spaces := List.reverse_injective spaces
  by_cases empty : ns.toList = [] <;> by_cases empty' : ns'.toList = []
  · rw [empty, empty']
  · simp [empty, empty'] at spaces
  · simp [empty, empty'] at spaces
  · rw [if_neg empty, if_neg empty'] at spaces
    exact List.append_cancel_right spaces

def word : TypeRef → String
  | null => "null"
  | dynamic => "dynamic"
  | named ns name _ => qualified ns.val name.val
  | _ => ""

def list : TypeRef → String
  | unknown => "?"
  | named _ _ args => if args.items.isEmpty then "" else "<" ++ commaSeparated (displayAll args.items) ++ ">"
  | _ => ""

def isHead : TypeRef → Bool
  | array _ _ => false
  | byRef _ => false
  | _ => true

variable {t u : TypeRef}

lemma display_head (h : t.isHead = true) : t.display = t.word ++ t.list := by
  cases t with
  | named ns name args => simp [display, word, list, qualified]
  | array | byRef => cases h
  | _ => rfl

lemma Spellable.word_chars (h : t.Spellable) : ∀ c ∈ t.word.toList, ¬ IsTypeMark c := by
  cases h with
  | named spells => exact qualified_isWord spells
  | null | dynamic => simp [word, IsTypeMark]
  | _ => simp [word, ofElement]

end Words

section Heads

variable {t u : TypeRef} {ns name : Text} {args : EntityList TypeRef} {r s : List Char}

lemma toList_list (h : args.items ≠ []) : (TypeRef.named ns name args).list.toList =
    '<' :: (commaSeparated (args.items.map (·.val.display))).toList ++ ['>'] := by
  simp [list, h, displayAll_eq]

lemma Continues.ne (hr : Continues r) : r ≠ '<' :: s := by
  rintro rfl
  simpa using hr '<' rfl

lemma list_marks (t : TypeRef) (hr : Continues r) : ∀ c ∈ (t.list.toList ++ r).head?, ¬ ¬ IsTypeMark c := by
  have plain : ∀ c ∈ r.head?, ¬ ¬ IsTypeMark c := by
    intro c hc
    rcases hr c hc with rfl | rfl | rfl | rfl <;> simp [IsTypeMark]
  cases t with
  | unknown => simp [list, IsTypeMark]
  | named ns name args =>
    by_cases h : args.items = []
    · simpa [list, h] using plain
    · rw [toList_list h]
      simp [IsTypeMark]
  | _ => simpa [list] using plain

lemma Spellable.list_ne {k : String} (hk : k = "null" ∨ k = "dynamic") (h : Spellable (.named ns name args))
    (hword : k = qualified ns.val name.val) (hr : Continues r) : r ≠ (TypeRef.named ns name args).list.toList ++ s := by
  cases h with
  | named spells fresh =>
    have dotless : '.' ∉ k.toList := by rcases hk with rfl | rfl <;> simp
    have space : ns.val = "" := by
      by_contra h
      exact dotless (by simp [hword, toList_qualified, h, String.toList_eq_nil_iff])
    have own : name.val = k := by rw [hword, space, qualified]; simp
    have filled : args.items ≠ [] := fun he => by
      have := fresh space he
      rcases hk with rfl | rfl
      · exact this.1 own
      · exact this.2 own
    rw [toList_list filled]
    exact hr.ne

lemma Spellable.word_ne (h : Spellable (.named ns name args)) : (TypeRef.named ns name args).word ≠ "" := by
  cases h with
  | named spells =>
    intro h
    have := congrArg String.toList h
    simp [word, toList_qualified, spells.nonempty, String.toList_eq_nil_iff] at this

lemma list_unique {args' : EntityList TypeRef} {ns' name' : Text}
    (read : ∀ x ∈ args.items, ∀ y ∈ args'.items, ∀ r s, EndsElement '>' r → EndsElement '>' s →
      x.val.display.toList ++ r = y.val.display.toList ++ s → x.val.bare = y.val.bare ∧ r = s)
    (hr : Continues r) (hs : Continues s)
    (h : (named ns name args).list.toList ++ r = (named ns' name' args').list.toList ++ s) :
    List.Forall₂ (fun x y => x.val.bare = y.val.bare) args.items args'.items ∧ r = s := by
  by_cases empty : args.items = [] <;> by_cases empty' : args'.items = []
  · rw [empty, empty']
    exact ⟨.nil, by simpa [list, empty, empty'] using h⟩
  · rw [toList_list empty'] at h
    exact absurd (by simpa [list, empty] using h) hr.ne
  · rw [toList_list empty] at h
    exact absurd (by simpa [list, empty'] using h.symm) hs.ne
  · rw [toList_list empty, toList_list empty'] at h
    exact commaSeparated_unique (by decide) empty empty' read (by simpa using h)

lemma bare_named_congr {args' : EntityList TypeRef} {ns' name' : Text} (hns : ns.val = ns'.val)
    (hname : name.val = name'.val) (h : List.Forall₂ (fun x y => x.val.bare = y.val.bare) args.items args'.items) :
    (named ns name args).bare = (named ns' name' args').bare := by
  have elements : args.items.map (Handle.bare bare) = args'.items.map (Handle.bare bare) :=
    List.forall₂_eq_eq_eq ▸ List.forall₂_map_left_iff.mpr
      (List.forall₂_map_right_iff.mpr (h.imp fun x y h => congrArg (Handle.mk 0) h))
  simp [bare_named, Text.bare, EntityList.bare, hns, hname, elements]

theorem head_unique (ht : t.Spellable) (hu : u.Spellable) (headT : t.isHead = true) (headU : u.isHead = true)
    (read : ∀ x ∈ t.args, ∀ y ∈ u.args, ∀ r s, EndsElement '>' r → EndsElement '>' s →
      x.val.display.toList ++ r = y.val.display.toList ++ s → x.val.bare = y.val.bare ∧ r = s)
    (hr : Continues r) (hs : Continues s) (h : t.display.toList ++ r = u.display.toList ++ s) :
    t.bare = u.bare ∧ r = s := by
  rw [display_head headT, display_head headU, String.toList_append, String.toList_append, List.append_assoc,
    List.append_assoc] at h
  obtain ⟨chars, rest⟩ := word_unique ht.word_chars hu.word_chars (list_marks t hr) (list_marks u hs) h
  have words : t.word = u.word := String.toList_inj.mp chars
  cases ht with
  | array | byRef => cases headT
  | unknown =>
    cases hu with
    | unknown => exact ⟨rfl, by simpa [list] using rest⟩
    | named spells fresh arguments => exact absurd words.symm (Spellable.named spells fresh arguments).word_ne
    | array | byRef => cases headU
    | _ => simp [word] at words
  | null =>
    cases hu with
    | null => exact ⟨rfl, by simpa [list] using rest⟩
    | named spells fresh arguments =>
      exact absurd (by simpa [list] using rest) ((Spellable.named spells fresh arguments).list_ne (.inl rfl) words hr)
    | array | byRef => cases headU
    | _ => simp [word] at words
  | dynamic =>
    cases hu with
    | dynamic => exact ⟨rfl, by simpa [list] using rest⟩
    | named spells fresh arguments =>
      exact absurd (by simpa [list] using rest) ((Spellable.named spells fresh arguments).list_ne (.inr rfl) words hr)
    | array | byRef => cases headU
    | _ => simp [word] at words
  | named spells fresh arguments =>
    have named := Spellable.named spells fresh arguments
    cases hu with
    | unknown => exact absurd words named.word_ne
    | null => exact absurd (by simpa [list] using rest.symm) (named.list_ne (.inl rfl) words.symm hs)
    | dynamic => exact absurd (by simpa [list] using rest.symm) (named.list_ne (.inr rfl) words.symm hs)
    | named spells' =>
      obtain ⟨spaces, names⟩ := qualified_unique spells spells' words
      obtain ⟨args, rest⟩ := list_unique read hr hs rest
      exact ⟨bare_named_congr spaces names args, rest⟩
    | array | byRef => cases headU

end Heads

section Reading

variable {t u : TypeRef} {r s : List Char}

def Readable (t : TypeRef) : Prop :=
  ∀ u : TypeRef, u.Spellable → ∀ (xs ys : List Suffix) (r s : List Char), Closes r → Closes s →
    t.display.toList ++ (xs.flatMap Suffix.text ++ r) = u.display.toList ++ (ys.flatMap Suffix.text ++ s) →
      xs.foldl Suffix.apply t.bare = ys.foldl Suffix.apply u.bare ∧ r = s

lemma Readable.element (h : t.Readable) : ∀ y : Handle TypeRef, y.val.Spellable → ∀ r s, EndsElement '>' r →
    EndsElement '>' s → t.display.toList ++ r = y.val.display.toList ++ s → t.bare = y.val.bare ∧ r = s :=
  fun y hy r s hr hs heq => h y.val hy [] [] r s (closes_of_endsElement hr) (closes_of_endsElement hs) heq

lemma ofElement_pos (rank : UInt32) : (if rank = 0 then 1 else rank) ≠ 0 := by
  split
  · decide
  · assumption

lemma display_ofElement (e : Handle TypeRef) (rank : UInt32) (xs : List Suffix) (r : List Char) :
    (ofElement e rank).display.toList ++ (xs.flatMap Suffix.text ++ r) = e.val.display.toList ++
      ((Suffix.array (if rank = 0 then 1 else rank) (ofElement_pos rank) :: xs).flatMap Suffix.text ++ r) := by
  simp [ofElement, display, Suffix.text]

lemma display_byRef (e : Handle TypeRef) (xs : List Suffix) (r : List Char) :
    (TypeRef.byRef e).display.toList ++ (xs.flatMap Suffix.text ++ r) =
      e.val.display.toList ++ ((Suffix.byRef :: xs).flatMap Suffix.text ++ r) := by
  simp [display, Suffix.text]

lemma Spellable.args (h : t.Spellable) : ∀ x ∈ t.args, x.val.Spellable := by
  cases h with
  | named _ _ arguments => exact arguments
  | _ => simp [TypeRef.args, ofElement]

lemma readable_heads (ht : t.Spellable) (hu : u.Spellable) (headT : t.isHead = true) (headU : u.isHead = true)
    (args : ∀ x ∈ t.args, x.val.Readable) (xs ys : List Suffix) (hr : Closes r) (hs : Closes s)
    (h : t.display.toList ++ (xs.flatMap Suffix.text ++ r) = u.display.toList ++ (ys.flatMap Suffix.text ++ s)) :
    xs.foldl Suffix.apply t.bare = ys.foldl Suffix.apply u.bare ∧ r = s := by
  obtain ⟨same, rest⟩ := head_unique ht hu headT headU (fun x hx y hy => (args x hx).element y (hu.args y hy))
    (suffixes_continue hr xs) (suffixes_continue hs ys) h
  obtain ⟨rfl, ends⟩ := suffixes_unique hr hs rest
  exact ⟨by rw [same], ends⟩

lemma readable_head (ht : t.Spellable) (head : t.isHead = true) (args : ∀ x ∈ t.args, x.val.Readable) :
    t.Readable := by
  intro u hu
  induction hu with
  | array rank _ ih =>
    intro xs ys r s hr hs h
    rw [display_ofElement] at h
    exact ih xs _ r s hr hs h
  | byRef _ ih =>
    intro xs ys r s hr hs h
    rw [display_byRef] at h
    exact ih xs _ r s hr hs h
  | unknown => exact fun xs ys r s => readable_heads ht .unknown head rfl args xs ys
  | null => exact fun xs ys r s => readable_heads ht .null head rfl args xs ys
  | dynamic => exact fun xs ys r s => readable_heads ht .dynamic head rfl args xs ys
  | named spells fresh arguments =>
    exact fun xs ys r s => readable_heads ht (.named spells fresh arguments) head rfl args xs ys

theorem Spellable.readable (h : t.Spellable) : t.Readable := by
  induction h with
  | array rank _ ih =>
    intro u hu xs ys r s hr hs h
    rw [display_ofElement] at h
    exact ih u hu _ ys r s hr hs h
  | byRef _ ih =>
    intro u hu xs ys r s hr hs h
    rw [display_byRef] at h
    exact ih u hu _ ys r s hr hs h
  | unknown => exact readable_head .unknown rfl (by simp [TypeRef.args])
  | null => exact readable_head .null rfl (by simp [TypeRef.args])
  | dynamic => exact readable_head .dynamic rfl (by simp [TypeRef.args])
  | named spells fresh arguments ih => exact readable_head (.named spells fresh arguments) rfl ih

theorem Spellable.display_iff (ht : t.Spellable) (hu : u.Spellable) : t.display = u.display ↔ t.bare = u.bare := by
  constructor
  · intro h
    exact (ht.readable u hu [] [] [] [] (by simp [Closes]) (by simp [Closes]) (by rw [h])).1
  · intro h
    rw [← display_bare t, h, display_bare]

end Reading

end TypeRef

end CodeModel
