import Mathlib.Data.Nat.Find
import Mathlib.Order.Bounds.Basic
import Tighten.Proofs.Discovery
import Tighten.Proofs.Region

/-
Bytes and characters.

A parser speaks of byte offsets, an edit of lines and columns, and the way from the one to the other
goes through a lenient reading of part of a line.  Here the two are shown to be the same places.  A
byte offset leads to the position of the first character boundary that is not before it: at a
boundary the line is read in full, and inside a character the bytes that are there of it are read as
one character, which is the one that the boundary comes after.

So offsets in order lead to positions in order, and a region given by the positions of two
boundaries is the region of the bytes between them.
-/
namespace Tighten

open Text.Utf8 Region

namespace Text.Utf8

variable {text : List Char} {offset : Nat}

/-- There is a first boundary that is not before an offset. -/
theorem exists_nextBoundary (h : offset ≤ (encode text).length) :
    ∃ k ≤ text.length, offset ≤ bytesBefore text k ∧ ∀ j < k, bytesBefore text j < offset := by
  have hend : offset ≤ bytesBefore text text.length := by
    rwa [bytesBefore, List.take_length]
  have hsome : ∃ k, offset ≤ bytesBefore text k := ⟨_, hend⟩
  refine ⟨Nat.find hsome, Nat.find_min' hsome hend, Nat.find_spec hsome, ?_⟩
  intro j hj
  exact Nat.lt_of_not_le (Nat.find_min hsome hj)

theorem isLeast_nextBoundary {k : Nat} (hk : k ≤ text.length)
    (hnext : offset ≤ bytesBefore text k) (hleast : ∀ j < k, bytesBefore text j < offset) :
    IsLeast {x | offset ≤ x ∧ onBoundary text x = true} (bytesBefore text k) := by
  refine ⟨⟨hnext, onBoundary_iff.mpr ⟨k, hk, rfl⟩⟩, ?_⟩
  rintro x ⟨hx, hboundary⟩
  obtain ⟨j, -, rfl⟩ := onBoundary_iff.mp hboundary
  refine bytesBefore_mono text ?_
  by_contra hlt
  have hless := hleast j (by omega)
  omega

end Text.Utf8

/-! ### From an offset to a position -/

namespace Position

/-- Inside a character the position is the one after the character. -/
theorem ofOffset_inside (front back : List Char) {c : Char} {n : Nat} (hpos : 0 < n)
    (hlt : n < (String.utf8EncodeChar c).length) :
    Position.ofOffset (encode (front ++ c :: back)) ((encode front).length + n) =
      Position.after (front ++ [c]) := by
  have hc : c ≠ '\n' := by
    rintro rfl
    have hone : (String.utf8EncodeChar '\n').length = 1 := by decide
    omega
  have hcut : newline ∉ (String.utf8EncodeChar c).take n := by
    intro hmem
    exact hc ((newline_mem_iff c).mp (List.mem_of_mem_take hmem))
  have hone : '\n' ∉ [c] := by simpa using Ne.symm hc
  have hread := Position.ofOffset_append front hcut ((String.utf8EncodeChar c).drop n ++ encode back)
  rw [← List.append_assoc ((String.utf8EncodeChar c).take n), List.take_append_drop,
    List.length_take_of_le (Nat.le_of_lt hlt), ← encode_cons, ← encode_append] at hread
  rw [hread, ← beq_iff_eq, Position.beq_iff]
  refine ⟨?_, ?_⟩
  · simp only [after, List.count_append, List.count_eq_zero.mpr hone, Nat.add_zero]
  · simp only [after, length_decodeLossy_cut _ hpos hlt, lastLine_append_of_not_mem hone,
      List.length_append, List.length_singleton]

/-- The position of an offset is that of the next boundary. -/
theorem isOffset_ofOffset {text : List Char} {offset k : Nat} (hk : k ≤ text.length)
    (hnext : offset ≤ bytesBefore text k) (hleast : ∀ j < k, bytesBefore text j < offset) :
    IsOffset text (Position.ofOffset (encode text) offset) k := by
  refine isOffset_iff.mpr ⟨hk, ?_⟩
  rcases Nat.eq_or_lt_of_le hnext with rfl | hinside
  · exact Discovery.ofOffset_bytesBefore text k
  cases k with
  | zero => simp [bytesBefore] at hinside
  | succ j =>
      have hj : j < text.length := by omega
      have hbefore := hleast j (Nat.lt_succ_self j)
      have hsize := bytesBefore_add text j 1
      have hchar : (text.drop j).take 1 = [text[j]] := by
        rw [List.drop_eq_getElem_cons hj, List.take_succ_cons, List.take_zero]
      have hsplit : text.take j ++ text[j] :: text.drop (j + 1) = text := by
        rw [← List.drop_eq_getElem_cons hj, List.take_append_drop]
      rw [hchar, encode_cons, encode_nil, List.append_nil] at hsize
      have hat := ofOffset_inside (text.take j) (text.drop (j + 1)) (c := text[j])
        (n := offset - bytesBefore text j) (by omega) (by omega)
      rw [hsplit, ← bytesBefore, Nat.add_sub_cancel' (Nat.le_of_lt hbefore),
        ← List.take_succ_eq_append_getElem hj] at hat
      exact hat

end Position

/-! ### From offsets to regions -/

/-- Offsets in order make a span. -/
theorem Span.exists_ofBytes {text : List Char} {s e : Nat} (hse : s ≤ e)
    (he : e ≤ (encode text).length) : ∃ span, Span.ofBytes (encode text) s e = .ok span := by
  obtain ⟨a, ha, hnexta, hleasta⟩ := exists_nextBoundary (Nat.le_trans hse he)
  obtain ⟨b, hb, hnextb, hleastb⟩ := exists_nextBoundary he
  have hab : a ≤ b := by
    by_contra hlt
    have hless := hleasta b (by omega)
    omega
  have hordered := ((Position.isOffset_ofOffset ha hnexta hleasta).not_before_iff
    (Position.isOffset_ofOffset hb hnextb hleastb)).mpr hab
  rw [ofBytes, ofPositions, dif_pos hordered]
  exact ⟨_, rfl⟩

/-- Replacing the span of two boundaries replaces the bytes between them. -/
theorem Region.replace_ofBytes {code : String} {s e : Nat}
    (hs : onBoundary code.toList s = true) (he : onBoundary code.toList e = true)
    (replacement : String) {span : Span}
    (hspan : Span.ofBytes (encode code.toList) s e = .ok span) :
    ∃ result, Region.replace code span.start span.stop replacement = .ok result ∧
      encode result.toList = (encode code.toList).take s ++ encode replacement.toList ++
        (encode code.toList).drop e := by
  obtain ⟨a, ha, rfl⟩ := onBoundary_iff.mp hs
  obtain ⟨b, hb, rfl⟩ := onBoundary_iff.mp he
  simp only [Span.ofBytes, Span.ofPositions, Discovery.ofOffset_bytesBefore] at hspan
  split at hspan
  · next hordered =>
      obtain rfl := Except.ok.inj hspan
      refine ⟨String.ofList (code.toList.take a ++ replacement.toList ++ code.toList.drop b),
        replace_eq_ok_iff.mpr ⟨a, b, isOffset_iff.mpr ⟨ha, rfl⟩, isOffset_iff.mpr ⟨hb, rfl⟩,
          hordered, String.toList_ofList⟩, ?_⟩
      rw [String.toList_ofList, encode_append, encode_append, encode_take, encode_drop]
  · cases hspan

/-- **Byte coordinates and character coordinates agree.**  A byte offset of a text, with its point,
leads to the position of the first character boundary that is not before it.  Any two offsets in
order make a span.  And the span of two boundaries can be replaced by anything, which replaces the
bytes between them and no others. -/
theorem coordinates_agree (code : String) :
    (∀ offset ≤ (encode code.toList).length, ∃ k,
      IsLeast {x | offset ≤ x ∧ onBoundary code.toList x = true} (bytesBefore code.toList k) ∧
      IsOffset code.toList (Position.ofPoint (encode code.toList) offset
        (Point.ofOffset (encode code.toList) offset).row
        (Point.ofOffset (encode code.toList) offset).column) k) ∧
    (∀ s e, s ≤ e → e ≤ (encode code.toList).length →
      ∃ span, Span.ofBytes (encode code.toList) s e = .ok span) ∧
    ∀ s e, s ≤ e → onBoundary code.toList s = true → onBoundary code.toList e = true →
      ∀ replacement : String, ∃ span result, Span.ofBytes (encode code.toList) s e = .ok span ∧
        Region.replace code span.start span.stop replacement = .ok result ∧
        encode result.toList = (encode code.toList).take s ++ encode replacement.toList ++
          (encode code.toList).drop e := by
  refine ⟨?_, fun _ _ => Span.exists_ofBytes, ?_⟩
  · intro offset hoffset
    obtain ⟨k, hk, hnext, hleast⟩ := exists_nextBoundary hoffset
    exact ⟨k, isLeast_nextBoundary hk hnext hleast, Position.isOffset_ofOffset hk hnext hleast⟩
  · intro s e hse hs he replacement
    obtain ⟨b, -, hb⟩ := onBoundary_iff.mp he
    have hfits : e ≤ (encode code.toList).length := by
      rw [← hb]
      exact bytesBefore_le code.toList b
    obtain ⟨span, hspan⟩ := Span.exists_ofBytes hse hfits
    obtain ⟨result, hreplace, hbytes⟩ := replace_ofBytes hs he replacement hspan
    exact ⟨span, result, hspan, hreplace, hbytes⟩

/-- In `é`, a newline and `pub`, the offset inside the `é` leads to the end of the first line, and
the bytes of `pub` can be replaced. -/
theorem coordinates_agree_accent :
    (∃ k, IsLeast {x | 1 ≤ x ∧ onBoundary "é\npub".toList x = true}
        (bytesBefore "é\npub".toList k) ∧
      IsOffset "é\npub".toList (Position.ofPoint (encode "é\npub".toList) 1
        (Point.ofOffset (encode "é\npub".toList) 1).row
        (Point.ofOffset (encode "é\npub".toList) 1).column) k) ∧
    ∃ span result, Span.ofBytes (encode "é\npub".toList) 3 6 = .ok span ∧
      Region.replace "é\npub" span.start span.stop "ñ" = .ok result ∧
      encode result.toList = [0xC3, 0xA9, 0x0A, 0xC3, 0xB1] := by
  obtain ⟨hposition, -, hreplace⟩ := coordinates_agree "é\npub"
  obtain ⟨span, result, hspan, hresult, hbytes⟩ :=
    hreplace 3 6 (by decide) (by decide) (by decide) "ñ"
  refine ⟨hposition 1 (by decide), span, result, hspan, hresult, ?_⟩
  rw [hbytes]
  decide

end Tighten
