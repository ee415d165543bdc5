import Tighten.Proofs.Utf8

/-
Several replacements at once.

A patch says which stretch of a list gives way to what.  Patches that stand one after the other are
made at once by copying what lies between them and writing their contents in between; the places of
all of them are those in the list as it was.  `Patched` is what it means that a list is the outcome
of a collection of patches, whatever order they are given in.

Two facts are used of this.  What lies before all patches is carried over as it is, so a further
patch can still be made there.  And patching the characters of a text patches its bytes.
-/
namespace Tighten

/-- The elements from `start` up to `stop` give way to `content`. -/
structure Patch (α : Type) where
  start : Nat
  stop : Nat
  content : List α
deriving DecidableEq, Repr

section Splice

variable {α : Type}

/-- The list from index `done` on, with patches made that stand one after the other. -/
def splice (xs : List α) : (done : Nat) → List (Patch α) → List α
  | done, [] => xs.drop done
  | done, p :: rest =>
    (xs.drop done).take (p.start - done) ++ p.content ++ splice xs p.stop rest

/-- The outcome of making every patch of a list exactly once, at its place in the list as it was.
The patches do not overlap. -/
def Patched (patches : List (Patch α)) (xs result : List α) : Prop :=
  ∃ ordered : List (Patch α), ordered.Perm patches ∧
    ordered.Pairwise (fun p q => p.stop ≤ q.start) ∧
    (∀ p ∈ ordered, p.start ≤ p.stop ∧ p.stop ≤ xs.length) ∧
    result = splice xs 0 ordered

/-- What lies before all patches is carried over. -/
theorem splice_append (xs : List α) {a b : Nat} {patches : List (Patch α)} (hab : a ≤ b)
    (h : ∀ p ∈ patches, b ≤ p.start) :
    splice xs a patches = (xs.drop a).take (b - a) ++ splice xs b patches := by
  cases patches with
  | nil =>
      have hdrop : xs.drop b = (xs.drop a).drop (b - a) := by
        rw [List.drop_drop, show a + (b - a) = b by omega]
      rw [splice, splice, hdrop, List.take_append_drop]
  | cons p rest =>
      have hp := h p List.mem_cons_self
      have htake : (xs.drop a).take (p.start - a)
          = (xs.drop a).take (b - a) ++ (xs.drop b).take (p.start - b) := by
        rw [show p.start - a = (b - a) + (p.start - b) by omega, List.take_add, List.drop_drop,
          show a + (b - a) = b by omega]
      rw [splice, splice, htake]
      simp only [List.append_assoc]

end Splice

namespace Text.Utf8

/-! ### From characters to bytes -/

/-- The number of bytes of the first characters of a text. -/
def bytesBefore (text : List Char) (k : Nat) : Nat :=
  (encode (text.take k)).length

theorem bytesBefore_add (text : List Char) (a k : Nat) :
    bytesBefore text (a + k) = bytesBefore text a + (encode ((text.drop a).take k)).length := by
  rw [bytesBefore, bytesBefore, List.take_add, encode_append, List.length_append]

theorem bytesBefore_mono (text : List Char) {a b : Nat} (h : a ≤ b) :
    bytesBefore text a ≤ bytesBefore text b := by
  obtain ⟨k, rfl⟩ := Nat.exists_eq_add_of_le h
  rw [bytesBefore_add]
  omega

/-- Every character has bytes. -/
theorem bytesBefore_strictMono (text : List Char) {a b : Nat} (h : a < b) (hb : b ≤ text.length) :
    bytesBefore text a < bytesBefore text b := by
  obtain ⟨k, rfl⟩ := Nat.exists_eq_add_of_le (Nat.le_of_lt h)
  rw [bytesBefore_add]
  cases hmid : (text.drop a).take k with
  | nil =>
      have hlen := congrArg List.length hmid
      simp only [List.length_take, List.length_drop, List.length_nil] at hlen
      omega
  | cons c rest =>
      obtain ⟨b, more, hbytes, -⟩ := piece_encode c []
      simp only [encode_cons, hbytes, List.length_append, List.length_cons]
      omega

theorem index_le_of_bytesBefore {text : List Char} {a b : Nat} (hb : b ≤ text.length)
    (h : bytesBefore text b ≤ bytesBefore text a) : b ≤ a := by
  by_contra hlt
  have hless := bytesBefore_strictMono text (Nat.lt_of_not_le hlt) hb
  omega

theorem bytesBefore_le (text : List Char) (k : Nat) :
    bytesBefore text k ≤ (encode text).length := by
  have h : encode text = encode (text.take k) ++ encode (text.drop k) := by
    rw [← encode_append, List.take_append_drop]
  rw [h, List.length_append, bytesBefore]
  omega

theorem encode_take (text : List Char) (k : Nat) :
    encode (text.take k) = (encode text).take (bytesBefore text k) := by
  have h : encode text = encode (text.take k) ++ encode (text.drop k) := by
    rw [← encode_append, List.take_append_drop]
  rw [h, bytesBefore, List.take_left]

theorem encode_drop (text : List Char) (k : Nat) :
    encode (text.drop k) = (encode text).drop (bytesBefore text k) := by
  have h : encode text = encode (text.take k) ++ encode (text.drop k) := by
    rw [← encode_append, List.take_append_drop]
  rw [h, bytesBefore, List.drop_left]

/-- The bytes of a stretch of a text. -/
theorem encode_stretch (text : List Char) (a b : Nat) :
    encode ((text.drop a).take (b - a))
      = ((encode text).drop (bytesBefore text a)).take
        (bytesBefore text b - bytesBefore text a) := by
  by_cases hab : a ≤ b
  · obtain ⟨k, rfl⟩ := Nat.exists_eq_add_of_le hab
    have h : encode (text.drop a)
        = encode ((text.drop a).take k) ++ encode ((text.drop a).drop k) := by
      rw [← encode_append, List.take_append_drop]
    rw [bytesBefore_add, Nat.add_sub_cancel_left, Nat.add_sub_cancel_left, ← encode_drop, h,
      List.take_left]
  · have hmono := bytesBefore_mono text (Nat.le_of_not_le hab)
    rw [Nat.sub_eq_zero_of_le (by omega), Nat.sub_eq_zero_of_le hmono, List.take_zero,
      List.take_zero, encode_nil]

section Reading

variable {text token : List Char} {s e : Nat}

/-- A place before a byte that begins a character is a boundary. -/
theorem exists_boundary {b : UInt8} {rest : List UInt8} (hs : (encode text).drop s = b :: rest)
    (hb : isContinuation b = false) : ∃ a < text.length, s = bytesBefore text a := by
  induction text generalizing s with
  | nil => simp at hs
  | cons c text ih =>
      obtain ⟨lead, more, hbytes, -, hmore⟩ := exists_encodeChar c
      have hshift : ∀ a,
          bytesBefore (c :: text) (a + 1) = (lead :: more).length + bytesBefore text a := by
        intro a
        rw [bytesBefore, List.take_succ_cons, encode_cons, hbytes, List.length_append, bytesBefore]
      rw [encode_cons, hbytes] at hs
      by_cases hzero : s = 0
      · exact ⟨0, Nat.zero_lt_succ _, by simp [bytesBefore, hzero]⟩
      by_cases hin : s < (lead :: more).length
      · -- inside the first character all bytes go on with it
        exfalso
        rw [List.drop_append_of_le_length (Nat.le_of_lt hin)] at hs
        obtain ⟨k, rfl⟩ := Nat.exists_eq_succ_of_ne_zero hzero
        have hlt : k < more.length := by
          simpa using hin
        rw [List.drop_succ_cons, List.drop_eq_getElem_cons hlt, List.cons_append] at hs
        have hcont := hmore _ (List.getElem_mem hlt)
        rw [(List.cons.inj hs).1, hb] at hcont
        cases hcont
      · have hdrop : (encode text).drop (s - (lead :: more).length) = b :: rest := by
          have hnone : (lead :: more).drop s = [] := List.drop_eq_nil_of_le (by omega)
          rw [← hs, List.drop_append, hnone, List.nil_append]
        obtain ⟨a, ha, hsa⟩ := ih hdrop
        refine ⟨a + 1, Nat.succ_lt_succ ha, ?_⟩
        rw [hshift]
        omega

/-- Bytes of a text that can be read are those of some of its characters. -/
theorem exists_stretch_of_decode (he : e ≤ (encode text).length)
    (h : decode (((encode text).take e).drop s) = .ok token) (hne : token ≠ []) :
    ∃ a b, a < b ∧ b ≤ text.length ∧ s = bytesBefore text a ∧ e = bytesBefore text b := by
  have hbytes := encode_of_decode h
  obtain ⟨c, others, rfl⟩ := List.exists_cons_of_ne_nil hne
  obtain ⟨lead, more, hchar, hlead, -⟩ := exists_encodeChar c
  have hse : s < e := by
    by_contra hle
    rw [List.drop_eq_nil_of_le (by rw [List.length_take]; omega), encode_cons, hchar] at hbytes
    cases hbytes
  have hdrop : (encode text).drop s = encode (c :: others) ++ (encode text).drop e := by
    rw [hbytes, ← List.drop_append_of_le_length (by rw [List.length_take]; omega),
      List.take_append_drop]
  have hstart : (encode text).drop s =
      lead :: (more ++ (encode others ++ (encode text).drop e)) := by
    rw [hdrop, encode_cons, hchar, List.append_assoc, List.cons_append]
  obtain ⟨a, ha, rfl⟩ := exists_boundary hstart hlead
  -- from there on the characters that are read are those of the text
  have hpieces : (text.drop a).map Piece.char =
      (c :: others).map Piece.char ++ pieces ((encode text).drop e) := by
    rw [← pieces_encode, ← hdrop, ← encode_drop, pieces_encode_all]
  have htake : (text.drop a).take (c :: others).length = c :: others := by
    have hmap := congrArg (List.take (c :: others).length) hpieces
    rw [← List.map_take, List.take_left' (by rw [List.length_map])] at hmap
    exact List.map_injective_iff.mpr (fun x y hxy => Piece.char.inj hxy) hmap
  have hlength : (c :: others).length ≤ (text.drop a).length := by
    have hle := congrArg List.length htake
    rw [List.length_take] at hle
    omega
  rw [List.length_drop] at hlength
  refine ⟨a, a + (c :: others).length, ?_, by omega, rfl, ?_⟩
  · rw [List.length_cons]
    omega
  · rw [bytesBefore_add, htake, hbytes, List.length_drop, List.length_take]
    omega

end Reading

end Text.Utf8

namespace Patch

open Text.Utf8 (encode bytesBefore)

/-- The patch of the bytes of a text that a patch of its characters amounts to. -/
def encoded (text : List Char) (p : Patch Char) : Patch UInt8 :=
  ⟨bytesBefore text p.start, bytesBefore text p.stop, encode p.content⟩

end Patch

namespace Text.Utf8

theorem encode_splice (text : List Char) (patches : List (Patch Char)) :
    ∀ done : Nat, encode (splice text done patches)
      = splice (encode text) (bytesBefore text done) (patches.map (Patch.encoded text)) := by
  induction patches with
  | nil => exact encode_drop text
  | cons p rest ih =>
      intro done
      rw [splice, encode_append, encode_append, encode_stretch, ih, List.map_cons, splice]
      rfl

/-- Patching the characters of a text patches its bytes. -/
theorem patched_encode {text : List Char} {ordered : List (Patch Char)}
    (hordered : ordered.Pairwise (fun p q => p.stop ≤ q.start))
    (hfit : ∀ p ∈ ordered, p.start ≤ p.stop) {patches : List (Patch UInt8)}
    (hperm : (ordered.map (Patch.encoded text)).Perm patches) :
    Patched patches (encode text) (encode (splice text 0 ordered)) := by
  refine ⟨ordered.map (Patch.encoded text), hperm, ?_, ?_, ?_⟩
  · rw [List.pairwise_map]
    exact hordered.imp fun h => bytesBefore_mono text h
  · intro q hq
    obtain ⟨p, hp, rfl⟩ := List.mem_map.mp hq
    exact ⟨bytesBefore_mono text (hfit p hp), bytesBefore_le text p.stop⟩
  · rw [encode_splice]
    rfl

end Text.Utf8

end Tighten
