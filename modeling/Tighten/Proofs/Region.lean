import Tighten.Proofs.Answers
import Tighten.Proofs.Position

/-
Positions that exist in a document, and where they are.

A position exists where so many newlines and so many characters after the last of them can be
counted in some front part of the document; the length of that front part is its offset.  Looking a
position up among the lines finds the offset where there is one and is refused where there is none.
One direction is `Region.offset_after`.  For the other, a line of a document is a stretch of it that
begins at the start or after a newline, so a column of the line leads to a front part of the
document.

Reading on in a document only ever moves the position forward, so positions and offsets are in the
same order and a region that is the right way round is so by either.
-/
namespace Tighten

/-- The offset of a position in a document: what stands before it has the line's number of newlines
and the column's number of characters after the last of them, both counted from one. -/
structure Region.IsOffset (document : List Char) (p : Position) (k : Nat) : Prop where
  fits : k ≤ document.length
  line : p.line = 1 + (document.take k).count '\n'
  column : p.column = 1 + (lastLine (document.take k)).length

namespace Region

variable {document : List Char} {p q : Position} {a b k : Nat}

instance : Decidable (IsOffset document p k) :=
  decidable_of_iff (k ≤ document.length ∧ p.line = 1 + (document.take k).count '\n' ∧
      p.column = 1 + (lastLine (document.take k)).length)
    ⟨fun h => ⟨h.1, h.2.1, h.2.2⟩, fun h => ⟨h.fits, h.line, h.column⟩⟩

theorem isOffset_iff :
    IsOffset document p k ↔ k ≤ document.length ∧ p = Position.after (document.take k) := by
  have heq : p = Position.after (document.take k) ↔
      p.line = (document.take k).count '\n' + 1 ∧
        p.column = (lastLine (document.take k)).length + 1 := by
    rw [← beq_iff_eq, Position.beq_iff]
    rfl
  rw [heq]
  constructor
  · intro h
    exact ⟨h.fits, by rw [h.line, Nat.add_comm], by rw [h.column, Nat.add_comm]⟩
  · rintro ⟨hfits, hline, hcolumn⟩
    exact ⟨hfits, by rw [hline, Nat.add_comm], by rw [hcolumn, Nat.add_comm]⟩

/-- What comes after a position has no part in its offset. -/
theorem IsOffset.of_take {text : List Char} (h : IsOffset text p k) (hk : k ≤ document.length)
    (htake : document.take k = text.take k) : IsOffset document p k :=
  ⟨hk, by rw [htake, h.line], by rw [htake, h.column]⟩

/-! ### The order of positions -/

/-- Positions are in the order of their offsets. -/
theorem IsOffset.before_iff (hp : IsOffset document p a) (hq : IsOffset document q b) :
    p.before q = true ↔ a < b := by
  obtain ⟨ha, rfl⟩ := isOffset_iff.mp hp
  obtain ⟨hb, rfl⟩ := isOffset_iff.mp hq
  constructor
  · intro hbefore
    by_contra hle
    rcases Nat.lt_or_eq_of_le (Nat.le_of_not_lt hle) with hlt | rfl
    · have hafter := Position.after_take_before hlt ha
      rw [Position.before_iff] at hbefore hafter
      omega
    · rw [Position.before_iff] at hbefore
      omega
  · intro hlt
    exact Position.after_take_before hlt hb

theorem IsOffset.not_before_iff (hp : IsOffset document p a) (hq : IsOffset document q b) :
    q.before p = false ↔ a ≤ b := by
  rw [← Bool.not_eq_true, hq.before_iff hp, Nat.not_lt]

/-- A position has at most one offset. -/
theorem IsOffset.unique (ha : IsOffset document p a) (hb : IsOffset document p b) : a = b := by
  have hsame : p.before p = false := by simp [Position.before]
  have hle := (ha.not_before_iff hb).mp hsame
  have hge := (hb.not_before_iff ha).mp hsame
  omega

/-! ### Looking a position up -/

/-- A line of a text is a stretch without newlines, at the start or after a newline. -/
theorem exists_line (text : List Char) :
    ∀ (i : Nat) (line : List Char), (Text.lines text)[i]? = some line →
      ∃ above below, text = above ++ (line ++ below) ∧ above.count '\n' = i ∧
        (above = [] ∨ ∃ front, above = front ++ ['\n']) ∧ '\n' ∉ line := by
  induction text with
  | nil =>
      intro i line h
      cases i with
      | zero =>
          obtain rfl := Option.some.inj h
          exact ⟨[], [], rfl, rfl, Or.inl rfl, List.not_mem_nil⟩
      | succ i => simp [Text.lines] at h
  | cons c text ih =>
      intro i line h
      by_cases hc : c = '\n'
      · rw [Text.lines, if_pos hc] at h
        cases i with
        | zero =>
            obtain rfl := Option.some.inj h
            exact ⟨[], c :: text, rfl, rfl, Or.inl rfl, List.not_mem_nil⟩
        | succ i =>
            obtain ⟨above, below, rfl, hcount, hstart, hline⟩ := ih i line h
            refine ⟨c :: above, below, rfl, by simp [hc, hcount], Or.inr ?_, hline⟩
            rcases hstart with rfl | ⟨front, rfl⟩
            · exact ⟨[], by rw [hc, List.nil_append]⟩
            · exact ⟨c :: front, rfl⟩
      · obtain ⟨first, others, hlines⟩ := List.exists_cons_of_ne_nil (Text.lines_ne_nil text)
        rw [hlines] at ih
        simp only [Text.lines, if_neg hc, hlines] at h
        cases i with
        | zero =>
            -- the first line begins the text, so nothing is above it
            obtain rfl := Option.some.inj h
            obtain ⟨above, below, rfl, hcount, hstart, hline⟩ := ih 0 first rfl
            have habove : above = [] := by
              rcases hstart with rfl | ⟨front, rfl⟩
              · rfl
              · simp at hcount
            refine ⟨[], below, by rw [habove]; rfl, rfl, Or.inl rfl, ?_⟩
            exact List.not_mem_cons_of_ne_of_not_mem (Ne.symm hc) hline
        | succ i =>
            obtain ⟨above, below, rfl, hcount, hstart, hline⟩ := ih (i + 1) line h
            refine ⟨c :: above, below, rfl, ?_, Or.inr ?_, hline⟩
            · rw [List.count_cons_of_ne hc, hcount]
            · rcases hstart with rfl | ⟨front, rfl⟩
              · simp at hcount
              · exact ⟨c :: front, rfl⟩

/-- A column of a line leads to a front part of the text. -/
theorem exists_after_of_line {text line : List Char} {i : Nat}
    (h : (Text.lines text)[i]? = some line) {column : Nat} (hcolumn : column ≤ line.length) :
    ∃ front back, text = front ++ back ∧ front.count '\n' = i ∧
      (lastLine front).length = column := by
  obtain ⟨above, below, rfl, hcount, hstart, hline⟩ := exists_line text i line h
  have hpart : '\n' ∉ line.take column := fun hmem => hline (List.mem_of_mem_take hmem)
  refine ⟨above ++ line.take column, line.drop column ++ below, ?_, ?_, ?_⟩
  · rw [List.append_assoc, ← List.append_assoc (line.take column), List.take_append_drop]
  · rw [List.count_append, hcount, List.count_eq_zero.mpr hpart, Nat.add_zero]
  · have hlast : lastLine (above ++ line.take column) = line.take column := by
      rcases hstart with rfl | ⟨front, rfl⟩
      · exact lastLine_of_not_mem hpart
      · rw [List.append_assoc, List.singleton_append, lastLine_append hpart]
    rw [hlast, List.length_take_of_le hcolumn]

/-- A position is found among the lines of a document exactly at its offset. -/
theorem offset_eq_ok_iff : offset (Text.lines document) p = .ok k ↔ IsOffset document p k := by
  constructor
  · intro h
    have hfound := h
    unfold offset at h
    split at h
    · cases h
    · next line hline =>
        split at h
        · cases h
        · next hcolumn =>
            have hline_pos := p.line_pos
            have hcolumn_pos := p.column_pos
            have hfits : p.column - 1 ≤ line.length := by omega
            obtain ⟨front, back, rfl, hcount, hlast⟩ := exists_after_of_line hline hfits
            have hafter : p = Position.after front := by
              rw [← beq_iff_eq, Position.beq_iff]
              simp only [Position.after, hcount, hlast]
              omega
            have hlength := Region.offset_after front back
            rw [← hafter, hfound] at hlength
            obtain rfl := Except.ok.inj hlength
            exact isOffset_iff.mpr ⟨by simp, by rw [List.take_left, hafter]⟩
  · intro h
    obtain ⟨hfits, rfl⟩ := isOffset_iff.mp h
    have hafter := Region.offset_after (document.take k) (document.drop k)
    rwa [List.take_append_drop, List.length_take_of_le hfits] at hafter

/-! ### Replacing -/

/-- A replacement is made exactly where both positions exist and are in order. -/
theorem replaceChars_eq_ok_iff {start stop : Position} {replacement result : List Char} :
    replaceChars document start stop replacement = .ok result ↔
      ∃ a b, IsOffset document start a ∧ IsOffset document stop b ∧ stop.before start = false ∧
        result = document.take a ++ replacement ++ document.drop b := by
  simp only [replaceChars, bind_eq_ok, offset_eq_ok_iff]
  constructor
  · rintro ⟨a, ha, b, hb, h⟩
    split at h
    · cases h
    · next hle =>
        obtain rfl := pure_eq_ok.mp h
        exact ⟨a, b, ha, hb, (ha.not_before_iff hb).mpr (by omega), rfl⟩
  · rintro ⟨a, b, ha, hb, horder, rfl⟩
    have hle := (ha.not_before_iff hb).mp horder
    refine ⟨a, ha, b, hb, ?_⟩
    rw [if_neg (by omega)]
    rfl

theorem replace_eq_ok_iff {document replacement result : String} {start stop : Position} :
    replace document start stop replacement = .ok result ↔
      ∃ a b, IsOffset document.toList start a ∧ IsOffset document.toList stop b ∧
        stop.before start = false ∧
        result.toList = document.toList.take a ++ replacement.toList ++ document.toList.drop b := by
  rw [replace, map_eq_ok]
  constructor
  · rintro ⟨chars, hchars, rfl⟩
    rw [String.toList_ofList]
    exact replaceChars_eq_ok_iff.mp hchars
  · intro h
    exact ⟨result.toList, replaceChars_eq_ok_iff.mpr h, String.ofList_toList⟩

theorem exists_replace_eq_ok_iff {document replacement : String} {start stop : Position} :
    (∃ result, replace document start stop replacement = .ok result) ↔
      (∃ a, IsOffset document.toList start a) ∧ (∃ b, IsOffset document.toList stop b) ∧
        stop.before start = false := by
  simp only [replace_eq_ok_iff]
  constructor
  · rintro ⟨_, a, b, ha, hb, horder, -⟩
    exact ⟨⟨a, ha⟩, ⟨b, hb⟩, horder⟩
  · rintro ⟨⟨a, ha⟩, ⟨b, hb⟩, horder⟩
    exact ⟨_, a, b, ha, hb, horder, String.toList_ofList⟩

/-- Every offset of a document belongs to one position. -/
theorem existsUnique_position {document : List Char} {k : Nat} (h : k ≤ document.length) :
    ∃! p, IsOffset document p k := by
  refine ⟨Position.after (document.take k), isOffset_iff.mpr ⟨h, rfl⟩, ?_⟩
  intro p hp
  exact (isOffset_iff.mp hp).2

/-- **A region is replaced by its offsets.**  The outcome is what stands before the offset of the
start, the replacement, and what stands from the offset of the stop on; there is one exactly where
both positions have an offset and are in order, and an error otherwise.  The offset of a position is
unique, every offset is that of one position, and positions are in the order of their offsets. -/
theorem replace_by_offset (document : String) (start stop : Position) (replacement : String) :
    (∀ result, replace document start stop replacement = .ok result ↔
      ∃ a b, IsOffset document.toList start a ∧ IsOffset document.toList stop b ∧
        stop.before start = false ∧
        result.toList =
          document.toList.take a ++ replacement.toList ++ document.toList.drop b) ∧
    ((∃ e, replace document start stop replacement = .error e) ↔
      ¬ ((∃ a, IsOffset document.toList start a) ∧ (∃ b, IsOffset document.toList stop b) ∧
        stop.before start = false)) ∧
    (∀ k ≤ document.toList.length, ∃! p, IsOffset document.toList p k) ∧
    (∀ p a b, IsOffset document.toList p a → IsOffset document.toList p b → a = b) ∧
    ∀ p q a b, IsOffset document.toList p a → IsOffset document.toList q b →
      (p.before q = true ↔ a < b) := by
  refine ⟨fun _ => replace_eq_ok_iff, ?_, fun _ => existsUnique_position,
    fun _ _ _ => IsOffset.unique, fun _ _ _ _ => IsOffset.before_iff⟩
  rw [← exists_replace_eq_ok_iff]
  cases replace document start stop replacement <;> simp

-- the place after a last newline exists, the one past it does not
example : replace "a\n" ⟨2, 1, by omega, by omega⟩ ⟨2, 1, by omega, by omega⟩ "b" = .ok "a\nb" ∧
    replace "a\n" ⟨2, 1, by omega, by omega⟩ ⟨2, 2, by omega, by omega⟩ "b" =
      .error (.pastLineEnd 2 2 0) := by decide

end Region

end Tighten
