import CodeModel.Proofs.Interning.Runs
import CodeModel.Proofs.Tables.Pool
import CodeModel.Session.Pool
import Mathlib.Data.Prod.Lex
import Mathlib.Order.Interval.Set.OrdConnected

namespace CodeModel

namespace Location

def key (l : Location) : ℕ ×ₗ ℕ := toLex (l.line.toNat, l.column.toNat)

lemma key_injective : Function.Injective key := by
  intro l m h
  obtain ⟨hline, hcolumn⟩ := Prod.mk.inj (toLex.injective h)
  cases l
  cases m
  congr
  · exact UInt32.toNat_inj.mp hline
  · exact UInt32.toNat_inj.mp hcolumn

instance : LinearOrder Location := LinearOrder.lift' key key_injective

variable {l m : Location}

lemma lt_iff : l < m ↔ l.line < m.line ∨ l.line = m.line ∧ l.column < m.column := by
  rw [UInt32.lt_iff_toNat_lt, UInt32.lt_iff_toNat_lt, ← UInt32.toNat_inj]
  exact Prod.Lex.toLex_lt_toLex

lemma le_iff : l ≤ m ↔ l.line < m.line ∨ l.line = m.line ∧ l.column ≤ m.column := by
  rw [UInt32.lt_iff_toNat_lt, UInt32.le_iff_toNat_le, ← UInt32.toNat_inj]
  exact Prod.Lex.toLex_le_toLex

lemma compare_eq_lt : l.compare m = .lt ↔ l < m := by
  rw [compare, Ordering.then_eq_lt, Std.compare_eq_lt, Std.compare_eq_iff_eq, Std.compare_eq_lt, lt_iff]

lemma compare_eq_gt : l.compare m = .gt ↔ m < l := by
  rw [compare, Ordering.then_eq_gt, Std.compare_eq_gt, Std.compare_eq_iff_eq, Std.compare_eq_gt, lt_iff,
    eq_comm (a := m.line)]

def rowEnd (line : UInt32) : Location := ⟨line, -1⟩

lemma le_rowEnd {line : UInt32} : l ≤ rowEnd line ↔ l.line ≤ line := by
  have column : l.column ≤ -1 := by
    rw [UInt32.le_iff_toNat_le]
    exact Nat.le_of_lt_succ l.column.toNat_lt
  rw [le_iff, rowEnd, and_iff_left column, UInt32.le_iff_lt_or_eq]

lemma line_mono (h : l ≤ m) : l.line ≤ m.line := by
  rcases le_iff.mp h with h | h
  · exact UInt32.le_of_lt h
  · exact h.1 ▸ UInt32.le_refl _

end Location

namespace Region

open Location

lemma same_self (r : Region) : r.same r = true := by simp [same]

section Locations

variable {r : Region} {l : Location}

def locations (r : Region) : Set Location := {l | r.contains l = true}

def last (r : Region) : Location := if r.stop.isEmpty then rowEnd r.start.line else r.stop

lemma locations_empty (h : r.isEmpty = true) : r.locations = ∅ := by
  simp [locations, contains, h]

theorem locations_eq (h : r.isEmpty = false) : r.locations = Set.Icc r.start r.last := by
  ext l
  have inside : r.contains l = true ↔ r.start ≤ l ∧
      if r.stop.isEmpty then l.line = r.start.line else l ≤ r.stop := by
    rw [contains, ← not_lt, ← not_lt (a := r.stop), ← compare_eq_lt, ← compare_eq_gt]
    simp only [h]
    split_ifs <;> simp_all
  rw [locations, Set.mem_ofPred_eq, inside, Set.mem_Icc, last]
  refine and_congr_right fun start => ?_
  split_ifs with stop
  · rw [le_rowEnd]
    exact ⟨fun h => h ▸ UInt32.le_refl _, fun h => UInt32.le_antisymm h (line_mono start)⟩
  · rfl

theorem locations_ordConnected (r : Region) : r.locations.OrdConnected := by
  cases h : r.isEmpty with
  | true => exact locations_empty h ▸ Set.ordConnected_empty
  | false => exact locations_eq h ▸ Set.ordConnected_Icc

lemma start_le (h : l ∈ r.locations) : r.isEmpty = false ∧ r.start ≤ l := by
  cases hr : r.isEmpty with
  | true => simp [locations_empty hr] at h
  | false => exact ⟨rfl, (locations_eq hr ▸ h).1⟩

theorem line_ne_zero (h : l ∈ r.locations) : l.line ≠ 0 := by
  obtain ⟨nonempty, start⟩ := start_le h
  have lines := UInt32.le_iff_toNat_le.mp (line_mono start)
  intro zero
  have first : r.start.line = 0 := UInt32.toNat_inj.mp (by simpa [zero] using lines)
  simp [isEmpty, Location.isEmpty, first] at nonempty

theorem locations_eq_empty_iff :
    r.locations = ∅ ↔ r.isEmpty = true ∨ r.stop.isEmpty = false ∧ r.stop < r.start := by
  cases h : r.isEmpty with
  | true => simp [locations_empty h]
  | false =>
    rw [locations_eq h, Set.Icc_eq_empty_iff, last, not_le]
    have rest : ¬ rowEnd r.start.line < r.start := not_lt.mpr (le_rowEnd.mpr (UInt32.le_refl _))
    split_ifs with stop <;> simp [stop, rest]

theorem start_isLeast (h : r.locations.Nonempty) : IsLeast r.locations r.start := by
  obtain ⟨l, hl⟩ := h
  have nonempty := (start_le hl).1
  rw [locations_eq nonempty] at hl ⊢
  exact isLeast_Icc (hl.1.trans hl.2)

lemma locations_closed (h : r.isEmpty = false) (stop : r.stop.isEmpty = false) :
    r.locations = Set.Icc r.start r.stop := by
  rw [locations_eq h, last, stop, if_neg Bool.false_ne_true]

lemma locations_open (h : r.isEmpty = false) (stop : r.stop.isEmpty = true) :
    r.locations = {l | l.line = r.start.line ∧ r.start.column ≤ l.column} := by
  ext l
  rw [locations_eq h, last, if_pos stop, Set.mem_Icc, le_rowEnd, le_iff, Set.mem_ofPred_eq]
  constructor
  · rintro ⟨before | ⟨row, column⟩, stop⟩
    · exact absurd before (UInt32.not_lt.mpr stop)
    · exact ⟨row.symm, column⟩
  · rintro ⟨row, column⟩
    exact ⟨.inr ⟨row.symm, column⟩, row ▸ UInt32.le_refl _⟩

end Locations

section Pooling

/-- No question about a region tells the one from the other. -/
structure Indistinct (q r : Region) : Prop where
  contains : q.contains = r.contains
  same : ∀ s, q.same s = r.same s ∧ s.same q = s.same r
  display : q.display = r.display

lemma indistinct_of_file {file file' : Option Text} {start stop : Location}
    (h : file.map Handle.val = file'.map Handle.val) : Indistinct ⟨file, start, stop⟩ ⟨file', start, stop⟩ where
  contains := rfl
  same s := by simp only [Region.same, h, and_self]
  display := by simp only [display, isEmpty, h]

lemma poolText_val (s : Setting) (w : Work) (t : Text) : ((poolText s t).run w).1.val = t.val := by
  cases hf : w.failure with
  | some e => rw [poolText, unlessFailed_run_failed (by simp [hf])]
  | none => rw [poolText_run t hf, TextPool.adopt_val]

theorem poolRegion_indistinct (s : Setting) (w : Work) (r : Region) : ((poolRegion s r).run w).1.Indistinct r := by
  obtain ⟨_ | f, start, stop⟩ := r
  · exact indistinct_of_file rfl
  · exact indistinct_of_file (congrArg some (poolText_val s w f))

theorem poolFile_reported (h : Hasher) (p : TextPool) (r : Region) :
    ∃ moved, (Session.poolFile h p r).1.file = some (moved, true, r.display) := by
  obtain ⟨_ | f, start, stop⟩ := r
  · exact ⟨_, rfl⟩
  · have pooled : Indistinct ⟨some (p.adopt h f).1, start, stop⟩ ⟨some f, start, stop⟩ :=
      indistinct_of_file (congrArg some (TextPool.adopt_val h p f))
    refine ⟨(p.adopt h f).1.id != f.id, ?_⟩
    simp only [Session.poolFile, (pooled.same _).2, pooled.display, same_self]

end Pooling

/-- The locations of a region form an interval, and pooling its file name makes no difference. -/
theorem locations_form_interval (r : Region) :
    r.locations.OrdConnected ∧
    (∀ l ∈ r.locations, l.line ≠ 0) ∧
    (r.locations = ∅ ↔ r.isEmpty = true ∨ r.stop.isEmpty = false ∧ r.stop < r.start) ∧
    (r.locations.Nonempty → IsLeast r.locations r.start) ∧
    (r.isEmpty = false → r.stop.isEmpty = false → r.locations = Set.Icc r.start r.stop) ∧
    (r.isEmpty = false → r.stop.isEmpty = true →
      r.locations = {l | l.line = r.start.line ∧ r.start.column ≤ l.column}) ∧
    (∀ s w, ((poolRegion s r).run w).1.Indistinct r) ∧
    ∀ h p, ∃ moved, (Session.poolFile h p r).1.file = some (moved, true, r.display) :=
  ⟨r.locations_ordConnected, fun _ => line_ne_zero, locations_eq_empty_iff, start_isLeast, locations_closed,
    locations_open, fun s w => poolRegion_indistinct s w r, fun h p => poolFile_reported h p r⟩

theorem half_empty_locations :
    let r : Region := ⟨none, ⟨7, 12⟩, ⟨0, 9⟩⟩
    let closed : Region := ⟨none, ⟨3, 5⟩, ⟨4, 10⟩⟩
    r.locations = {l | l.line = 7 ∧ 12 ≤ l.column} ∧ IsLeast r.locations ⟨7, 12⟩ ∧
      closed.locations = Set.Icc ⟨3, 5⟩ ⟨4, 10⟩ ∧ (⟨4, 1⟩ : Location) ∈ closed.locations ∧ (4 : UInt32) ≠ 0 := by
  intro r closed
  obtain ⟨-, -, -, least, -, rest, -⟩ := locations_form_interval r
  obtain ⟨-, lines, -, -, between, -⟩ := locations_form_interval closed
  have first : r.contains ⟨7, 12⟩ = true := by decide
  have inside : closed.contains ⟨4, 1⟩ = true := by decide
  exact ⟨rest rfl rfl, least ⟨⟨7, 12⟩, first⟩, between rfl rfl, inside, lines ⟨4, 1⟩ inside⟩

end Region

end CodeModel
