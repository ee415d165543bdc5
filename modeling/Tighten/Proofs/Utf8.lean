import Mathlib.Data.List.Basic
import Tighten.Proofs.Answers
import Tighten.Text.Lines
import Tighten.Text.Utf8

/-
Reading what was written.

The pieces of the bytes of a text are the characters of the text, so both ways of reading give it
back.  Conversely, bytes that can be read strictly are the bytes of what was read.  Both come down
to one character: which bytes announce how many others, and what is left of a scalar value when it
is cut into groups of six bits.  Where the bytes of a text end inside a character, what is there of
it is a single bad piece.

Newlines and carriage returns are bytes of their own and are part of no other character.  So
counting lines, and dropping the return before a newline, can be done on the bytes.
-/
namespace Tighten.Text.Utf8

@[simp] theorem encode_nil : encode [] = [] := rfl

@[simp] theorem encode_cons (c : Char) (text : List Char) :
    encode (c :: text) = String.utf8EncodeChar c ++ encode text := rfl

@[simp] theorem encode_append (a b : List Char) : encode (a ++ b) = encode a ++ encode b :=
  List.flatMap_append

/-! ### One character -/

theorem toNat_ofNat {n : Nat} (h : n < 256) : (UInt8.ofNat n).toNat = n := by
  rw [UInt8.toNat_ofNat']
  omega

theorem toNat_lt (c : Char) : c.toNat < 0xD800 ∨ 0xDFFF < c.toNat ∧ c.toNat < 0x110000 :=
  c.valid

/-- The bytes of a character, by the number of groups of six bits that its value needs. -/
theorem utf8EncodeChar_eq (c : Char) :
    String.utf8EncodeChar c =
      if c.toNat < 0x80 then [UInt8.ofNat c.toNat]
      else if c.toNat < 0x800 then
        [UInt8.ofNat (c.toNat / 64 + 0xC0), UInt8.ofNat (c.toNat % 64 + 0x80)]
      else if c.toNat < 0x10000 then
        [UInt8.ofNat (c.toNat / 4096 + 0xE0), UInt8.ofNat (c.toNat / 64 % 64 + 0x80),
          UInt8.ofNat (c.toNat % 64 + 0x80)]
      else
        [UInt8.ofNat (c.toNat / 262144 + 0xF0), UInt8.ofNat (c.toNat / 4096 % 64 + 0x80),
          UInt8.ofNat (c.toNat / 64 % 64 + 0x80), UInt8.ofNat (c.toNat % 64 + 0x80)] := by
  have hc := toNat_lt c
  have hval : c.val.toNat = c.toNat := rfl
  simp only [String.utf8EncodeChar, hval]
  by_cases h1 : c.toNat < 0x80
  · rw [if_pos (by omega), if_pos h1]
  rw [if_neg (by omega), if_neg h1]
  by_cases h2 : c.toNat < 0x800
  · rw [if_pos (by omega), if_pos h2, Nat.mod_eq_of_lt (by omega : c.toNat / 64 < 0x20)]
  rw [if_neg (by omega), if_neg h2]
  by_cases h3 : c.toNat < 0x10000
  · rw [if_pos (by omega), if_pos h3, Nat.mod_eq_of_lt (by omega : c.toNat / 4096 < 0x10)]
  · rw [if_neg (by omega), if_neg h3, Nat.mod_eq_of_lt (by omega : c.toNat / 262144 < 0x08)]

/-- A continuation byte that is in range is taken up. -/
theorem tail_cons {k taken value low high : Nat} {b : UInt8} {rest : List UInt8}
    (hlow : low ≤ b.toNat) (hhigh : b.toNat ≤ high) :
    tail (k + 1) taken value low high (b :: rest)
      = tail k (taken + 1) (value * 64 + (b.toNat - 0x80)) 0x80 0xBF rest := by
  rw [tail, if_pos ⟨hlow, hhigh⟩]

theorem lead?_two {b : UInt8} (hlow : 0xC2 ≤ b.toNat) (hhigh : b.toNat < 0xE0) :
    lead? b = some ⟨1, b.toNat - 0xC0, 0x80, 0xBF⟩ := by
  simp only [lead?]
  rw [if_neg (by omega), if_pos hhigh]

theorem lead?_three {b : UInt8} (hlow : 0xE0 ≤ b.toNat) (hhigh : b.toNat < 0xF0) :
    lead? b = some ⟨2, b.toNat - 0xE0, if b.toNat = 0xE0 then 0xA0 else 0x80,
      if b.toNat = 0xED then 0x9F else 0xBF⟩ := by
  simp only [lead?]
  rw [if_neg (by omega), if_neg (by omega)]
  by_cases h0 : b.toNat = 0xE0
  · simp [h0]
  by_cases hd : b.toNat = 0xED
  · simp [hd]
  · rw [if_neg h0, if_neg hd, if_pos hhigh, if_neg h0, if_neg hd]

theorem lead?_four {b : UInt8} (hlow : 0xF0 ≤ b.toNat) (hhigh : b.toNat ≤ 0xF4) :
    lead? b = some ⟨3, b.toNat - 0xF0, if b.toNat = 0xF0 then 0x90 else 0x80,
      if b.toNat = 0xF4 then 0x8F else 0xBF⟩ := by
  simp only [lead?]
  rw [if_neg (by omega), if_neg (by omega), if_neg (by omega), if_neg (by omega),
    if_neg (by omega)]
  by_cases h0 : b.toNat = 0xF0
  · simp [h0]
  by_cases h4 : b.toNat = 0xF4
  · simp [h4]
  · rw [if_neg h0, if_pos (by omega), if_neg h0, if_neg h4]

theorem lead?_none {b : UInt8} (h : b.toNat < 0xC2 ∨ 0xF4 < b.toNat) : lead? b = none := by
  simp only [lead?]
  rcases h with h | h
  · rw [if_pos h]
  · rw [if_neg (by omega), if_neg (by omega), if_neg (by omega), if_neg (by omega),
      if_neg (by omega), if_neg (by omega), if_neg (by omega), if_neg (by omega)]

/-- The first piece of the bytes of a character, whatever follows, is the character. -/
theorem piece_encode (c : Char) (rest : List UInt8) :
    ∃ b more, String.utf8EncodeChar c = b :: more ∧ piece b (more ++ rest) = .char c := by
  have hc := toNat_lt c
  rw [utf8EncodeChar_eq]
  by_cases h1 : c.toNat < 0x80
  · rw [if_pos h1]
    refine ⟨_, _, rfl, ?_⟩
    simp [piece, toNat_ofNat (by omega : c.toNat < 256), h1]
  rw [if_neg h1]
  have hb0 := toNat_ofNat (by omega : c.toNat % 64 + 0x80 < 256)
  have hb1 := toNat_ofNat (by omega : c.toNat / 64 % 64 + 0x80 < 256)
  have hb2 := toNat_ofNat (by omega : c.toNat / 4096 % 64 + 0x80 < 256)
  by_cases h2 : c.toNat < 0x800
  · rw [if_pos h2]
    refine ⟨_, _, rfl, ?_⟩
    have hb := toNat_ofNat (by omega : c.toNat / 64 + 0xC0 < 256)
    rw [piece, if_neg (by omega), lead?_two (by omega) (by omega)]
    simp only [hb, List.cons_append, List.nil_append]
    rw [tail_cons (by omega) (by omega), tail, hb0,
      show (c.toNat / 64 + 0xC0 - 0xC0) * 64 + (c.toNat % 64 + 0x80 - 0x80) = c.toNat by omega,
      Char.ofNat_toNat]
  rw [if_neg h2]
  by_cases h3 : c.toNat < 0x10000
  · rw [if_pos h3]
    refine ⟨_, _, rfl, ?_⟩
    have hb := toNat_ofNat (by omega : c.toNat / 4096 + 0xE0 < 256)
    rw [piece, if_neg (by omega), lead?_three (by omega) (by omega)]
    simp only [hb, List.cons_append, List.nil_append]
    rw [tail_cons (by split <;> omega) (by split <;> omega), tail_cons (by omega) (by omega), tail,
      hb0, hb1]
    rw [show ((c.toNat / 4096 + 0xE0 - 0xE0) * 64 + (c.toNat / 64 % 64 + 0x80 - 0x80)) * 64
      + (c.toNat % 64 + 0x80 - 0x80) = c.toNat by omega, Char.ofNat_toNat]
  · rw [if_neg h3]
    refine ⟨_, _, rfl, ?_⟩
    have hb := toNat_ofNat (by omega : c.toNat / 262144 + 0xF0 < 256)
    rw [piece, if_neg (by omega), lead?_four (by omega) (by omega)]
    simp only [hb, List.cons_append, List.nil_append]
    rw [tail_cons (by split <;> omega) (by split <;> omega), tail_cons (by omega) (by omega),
      tail_cons (by omega) (by omega), tail, hb0, hb1, hb2]
    rw [show (((c.toNat / 262144 + 0xF0 - 0xF0) * 64 + (c.toNat / 4096 % 64 + 0x80 - 0x80)) * 64
      + (c.toNat / 64 % 64 + 0x80 - 0x80)) * 64 + (c.toNat % 64 + 0x80 - 0x80) = c.toNat by omega,
      Char.ofNat_toNat]

/-- A character that needs another byte has one, in range, and goes on after it. -/
theorem tail_eq_char {k taken value low high : Nat} {bytes : List UInt8} {c : Char}
    (h : tail (k + 1) taken value low high bytes = .char c) :
    ∃ b rest, bytes = b :: rest ∧ low ≤ b.toNat ∧ b.toNat ≤ high ∧
      tail k (taken + 1) (value * 64 + (b.toNat - 0x80)) 0x80 0xBF rest = .char c := by
  cases bytes with
  | nil => simp [tail] at h
  | cons b rest =>
      rw [tail] at h
      split at h
      · next hb => exact ⟨b, rest, rfl, hb.1, hb.2, h⟩
      · cases h

theorem toNat_ofNat_char {n : Nat} (h : n < 0xD800 ∨ 0xDFFF < n ∧ n < 0x110000) :
    (Char.ofNat n).toNat = n := by
  have hvalid : n.isValidChar := h
  rw [Char.ofNat, dif_pos hvalid]
  rfl

theorem ofNat_eq {b : UInt8} {n : Nat} (h : n = b.toNat) : UInt8.ofNat n = b := by
  rw [h, UInt8.ofNat_toNat]

/-- A piece that is a character begins with the bytes of that character. -/
theorem encode_of_piece {b : UInt8} {rest : List UInt8} {c : Char}
    (h : piece b rest = .char c) :
    ∃ more after, rest = more ++ after ∧ String.utf8EncodeChar c = b :: more := by
  have hb := b.toNat_lt
  rw [piece] at h
  split at h
  · next hsmall =>
      obtain rfl := Piece.char.inj h
      refine ⟨[], rest, rfl, ?_⟩
      rw [utf8EncodeChar_eq, toNat_ofNat_char (by omega), if_pos hsmall, UInt8.ofNat_toNat]
  by_cases hnone : b.toNat < 0xC2 ∨ 0xF4 < b.toNat
  · rw [lead?_none hnone] at h
    cases h
  by_cases h2 : b.toNat < 0xE0
  · rw [lead?_two (by omega) h2] at h
    dsimp only at h
    obtain ⟨b₁, after, rfl, hlow, hhigh, h⟩ := tail_eq_char h
    rw [tail] at h
    obtain rfl := Piece.char.inj h
    refine ⟨[b₁], after, rfl, ?_⟩
    rw [utf8EncodeChar_eq, toNat_ofNat_char (by omega), if_neg (by omega), if_pos (by omega),
      ofNat_eq (by omega : _ = b.toNat), ofNat_eq (by omega : _ = b₁.toNat)]
  by_cases h3 : b.toNat < 0xF0
  · rw [lead?_three (by omega) h3] at h
    dsimp only at h
    obtain ⟨b₁, rest₁, rfl, hlow, hhigh, h⟩ := tail_eq_char h
    obtain ⟨b₂, after, rfl, hlow₂, hhigh₂, h⟩ := tail_eq_char h
    rw [tail] at h
    obtain rfl := Piece.char.inj h
    refine ⟨[b₁, b₂], after, rfl, ?_⟩
    have hrange : 0x800 ≤ ((b.toNat - 0xE0) * 64 + (b₁.toNat - 0x80)) * 64 + (b₂.toNat - 0x80) ∧
        (((b.toNat - 0xE0) * 64 + (b₁.toNat - 0x80)) * 64 + (b₂.toNat - 0x80) < 0xD800 ∨
          0xDFFF < ((b.toNat - 0xE0) * 64 + (b₁.toNat - 0x80)) * 64 + (b₂.toNat - 0x80)) ∧
        0x80 ≤ b₁.toNat ∧ b₁.toNat ≤ 0xBF := by
      split at hlow <;> split at hhigh <;> omega
    rw [utf8EncodeChar_eq, toNat_ofNat_char (by omega), if_neg (by omega), if_neg (by omega),
      if_pos (by omega), ofNat_eq (by omega : _ = b.toNat), ofNat_eq (by omega : _ = b₁.toNat),
      ofNat_eq (by omega : _ = b₂.toNat)]
  · rw [lead?_four (by omega) (by omega)] at h
    dsimp only at h
    obtain ⟨b₁, rest₁, rfl, hlow, hhigh, h⟩ := tail_eq_char h
    obtain ⟨b₂, rest₂, rfl, hlow₂, hhigh₂, h⟩ := tail_eq_char h
    obtain ⟨b₃, after, rfl, hlow₃, hhigh₃, h⟩ := tail_eq_char h
    rw [tail] at h
    obtain rfl := Piece.char.inj h
    refine ⟨[b₁, b₂, b₃], after, rfl, ?_⟩
    have hrange : 0x10000 ≤ ((b.toNat - 0xF0) * 64 + (b₁.toNat - 0x80)) * 4096 ∧
        ((b.toNat - 0xF0) * 64 + (b₁.toNat - 0x80)) * 4096 < 0x110000 ∧
        0x80 ≤ b₁.toNat ∧ b₁.toNat ≤ 0xBF := by
      split at hlow <;> split at hhigh <;> omega
    rw [utf8EncodeChar_eq, toNat_ofNat_char (by omega), if_neg (by omega), if_neg (by omega),
      if_neg (by omega), ofNat_eq (by omega : _ = b.toNat), ofNat_eq (by omega : _ = b₁.toNat),
      ofNat_eq (by omega : _ = b₂.toNat), ofNat_eq (by omega : _ = b₃.toNat)]

/-! ### Whole texts -/

theorem piecesFrom_append (taken rest : List UInt8) :
    piecesFrom taken.length (taken ++ rest) = pieces rest := by
  induction taken with
  | nil => cases rest <;> rfl
  | cons b more ih => simpa [piecesFrom] using ih

theorem pieces_encode (text : List Char) (rest : List UInt8) :
    pieces (encode text ++ rest) = text.map Piece.char ++ pieces rest := by
  induction text with
  | nil => rfl
  | cons c text ih =>
      obtain ⟨b, more, hbytes, hpiece⟩ := piece_encode c (encode text ++ rest)
      have hlen : c.utf8Size - 1 = more.length := by
        rw [← String.length_utf8EncodeChar, hbytes, List.length_cons, Nat.add_sub_cancel]
      rw [encode_cons, hbytes, List.cons_append, List.cons_append, List.append_assoc, pieces,
        piecesFrom, hpiece, Piece.length, hlen, piecesFrom_append, ih]
      rfl

theorem pieces_encode_all (text : List Char) : pieces (encode text) = text.map Piece.char := by
  have h := pieces_encode text []
  rwa [List.append_nil, show pieces [] = [] from rfl, List.append_nil] at h

theorem collect_map_char (text : List Char) :
    ∀ offset : Nat, collect offset (text.map Piece.char) = .ok text := by
  induction text with
  | nil => intro offset; rfl
  | cons c text ih => intro offset; simp [collect, ih]

/-- Strict reading gives back the text that was written. -/
theorem decode_encode (text : List Char) : decode (encode text) = .ok text := by
  rw [decode, pieces_encode_all, collect_map_char]

/-- So does lenient reading. -/
theorem decodeLossy_encode (text : List Char) : decodeLossy (encode text) = text := by
  rw [decodeLossy, pieces_encode_all, List.map_map]
  exact List.map_id text

theorem encode_of_collect :
    ∀ (n : Nat) (bytes : List UInt8), bytes.length ≤ n → ∀ (offset : Nat) (text : List Char),
      collect offset (pieces bytes) = .ok text → encode text = bytes := by
  intro n
  induction n with
  | zero =>
      intro bytes hlen offset text h
      obtain rfl := List.length_eq_zero_iff.mp (Nat.le_zero.mp hlen)
      simp only [pieces, piecesFrom, collect, Except.ok.injEq] at h
      rw [← h, encode_nil]
  | succ n ih =>
      intro bytes hlen offset text h
      cases bytes with
      | nil =>
          simp only [pieces, piecesFrom, collect, Except.ok.injEq] at h
          rw [← h, encode_nil]
      | cons b rest =>
          rw [pieces, piecesFrom] at h
          cases hpiece : piece b rest with
          | bad k fault => simp [hpiece, collect] at h
          | char c =>
              obtain ⟨more, after, rfl, hbytes⟩ := encode_of_piece hpiece
              have hsize : c.utf8Size - 1 = more.length := by
                rw [← String.length_utf8EncodeChar, hbytes, List.length_cons, Nat.add_sub_cancel]
              rw [hpiece, Piece.length, hsize, piecesFrom_append, collect] at h
              split at h
              · next cs hcs =>
                  obtain rfl := Except.ok.inj h
                  have hshort : after.length ≤ n := by
                    simp only [List.length_cons, List.length_append] at hlen
                    omega
                  rw [encode_cons, hbytes, ih after hshort _ cs hcs, List.cons_append]
              · cases h

/-- Bytes that can be read strictly are those of what was read. -/
theorem encode_of_decode {bytes : List UInt8} {text : List Char} (h : decode bytes = .ok text) :
    encode text = bytes := by
  unfold decode at h
  split at h
  · next cs hcs =>
      obtain rfl := Except.ok.inj h
      exact encode_of_collect _ bytes (Nat.le_refl _) 0 cs hcs
  · cases h

/-! ### Characters cut short -/

/-- What begins a character goes on to the end of the input, unless it is a character already. -/
theorem tail_of_append {bytes rest : List UInt8} {c : Char} :
    ∀ k taken value low high, tail k taken value low high (bytes ++ rest) = .char c →
      (∃ d, tail k taken value low high bytes = .char d) ∨
        tail k taken value low high bytes = .bad (taken + bytes.length) .truncated := by
  induction bytes with
  | nil =>
      intro k taken value low high _
      cases k with
      | zero => exact Or.inl ⟨_, rfl⟩
      | succ k => exact Or.inr rfl
  | cons b bytes ih =>
      intro k taken value low high h
      cases k with
      | zero => exact Or.inl ⟨_, rfl⟩
      | succ k =>
          obtain ⟨b', rest', heq, hlow, hhigh, hrest⟩ := tail_eq_char h
          obtain ⟨rfl, rfl⟩ := List.cons.inj heq
          have hlen : taken + (b :: bytes).length = taken + 1 + bytes.length := by
            rw [List.length_cons]
            omega
          rw [tail_cons hlow hhigh, hlen]
          exact ih k _ _ _ _ hrest

theorem piece_of_append {b : UInt8} {bytes rest : List UInt8} {c : Char}
    (h : piece b (bytes ++ rest) = .char c) :
    (∃ d, piece b bytes = .char d) ∨ piece b bytes = .bad (1 + bytes.length) .truncated := by
  unfold piece at h ⊢
  split at h
  · next hsmall =>
      rw [if_pos hsmall]
      exact Or.inl ⟨_, rfl⟩
  · next hsmall =>
      rw [if_neg hsmall]
      cases hlead : lead? b with
      | none => simp [hlead] at h
      | some l =>
          rw [hlead] at h
          exact tail_of_append _ _ _ _ _ h

/-- The bytes that begin a character are not a character of their own. -/
theorem piece_ne_char {c d : Char} {b : UInt8} {front back : List UInt8} (hback : back ≠ [])
    (h : String.utf8EncodeChar c = b :: (front ++ back)) : piece b front ≠ .char d := by
  intro hpiece
  obtain ⟨more, after, rfl, hd⟩ := encode_of_piece hpiece
  obtain ⟨b₁, more₁, hbytes₁, hpiece₁⟩ := piece_encode d (after ++ back)
  obtain ⟨b₂, more₂, hbytes₂, hpiece₂⟩ := piece_encode c []
  obtain ⟨rfl, rfl⟩ := List.cons.inj (hd.symm.trans hbytes₁)
  obtain ⟨rfl, rfl⟩ := List.cons.inj (h.symm.trans hbytes₂)
  -- both characters are read off the same bytes, so they have the same bytes
  rw [List.append_nil, List.append_assoc, hpiece₁] at hpiece₂
  obtain rfl := Piece.char.inj hpiece₂
  have hlen := congrArg List.length (hd.symm.trans h)
  have hpos := List.length_pos_iff.mpr hback
  simp only [List.length_cons, List.length_append] at hlen
  omega

/-- A character that is cut short is one bad piece. -/
theorem pieces_cut {c : Char} {n : Nat} (hpos : 0 < n)
    (hlt : n < (String.utf8EncodeChar c).length) :
    pieces ((String.utf8EncodeChar c).take n) = [.bad n .truncated] := by
  obtain ⟨b, more, hbytes, hpiece⟩ := piece_encode c []
  obtain ⟨k, rfl⟩ := Nat.exists_eq_add_of_lt hpos
  rw [hbytes, List.length_cons] at hlt
  rw [Nat.zero_add, hbytes, List.take_succ_cons, pieces, piecesFrom]
  have hback : more.drop k ≠ [] := by
    rw [ne_eq, List.drop_eq_nil_iff]
    omega
  have hsplit : more.take k ++ more.drop k = more := List.take_append_drop k more
  have hlen : (more.take k).length = k := List.length_take_of_le (by omega)
  have hbad : piece b (more.take k) = .bad (1 + k) .truncated := by
    rw [List.append_nil, ← hsplit] at hpiece
    rcases piece_of_append hpiece with ⟨d, hchar⟩ | hbad
    · exact absurd hchar (piece_ne_char hback (by rw [hsplit, hbytes]))
    · rwa [hlen] at hbad
  have hrest := piecesFrom_append (more.take k) []
  rw [hlen, List.append_nil] at hrest
  rw [hbad, Piece.length, Nat.add_sub_cancel_left, hrest, Nat.add_comm]
  rfl

/-- Read leniently, a character that is cut short counts as one. -/
theorem length_decodeLossy_cut (text : List Char) {c : Char} {n : Nat} (hpos : 0 < n)
    (hlt : n < (String.utf8EncodeChar c).length) :
    (decodeLossy (encode text ++ (String.utf8EncodeChar c).take n)).length = text.length + 1 := by
  rw [decodeLossy, pieces_encode, pieces_cut hpos hlt, List.length_map, List.length_append,
    List.length_map, List.length_singleton]

/-! ### Bytes that are characters -/

/-- A byte below `0x80` is never part of a longer character. -/
theorem eq_singleton_of_mem {b : UInt8} {c : Char} (hb : b.toNat < 0x80)
    (h : b ∈ String.utf8EncodeChar c) : c.toNat = b.toNat ∧ String.utf8EncodeChar c = [b] := by
  have hc := toNat_lt c
  rw [utf8EncodeChar_eq] at h ⊢
  by_cases h1 : c.toNat < 0x80
  · rw [if_pos h1] at h ⊢
    obtain rfl := List.mem_singleton.mp h
    exact ⟨(toNat_ofNat (by omega)).symm, rfl⟩
  -- every byte of a longer character has its highest bit set
  exfalso
  rw [if_neg h1] at h
  have hb0 := toNat_ofNat (by omega : c.toNat % 64 + 0x80 < 256)
  have hb1 := toNat_ofNat (by omega : c.toNat / 64 % 64 + 0x80 < 256)
  have hb2 := toNat_ofNat (by omega : c.toNat / 4096 % 64 + 0x80 < 256)
  by_cases h2 : c.toNat < 0x800
  · have hlead := toNat_ofNat (by omega : c.toNat / 64 + 0xC0 < 256)
    simp only [if_pos h2, List.mem_cons, List.not_mem_nil, or_false] at h
    rcases h with rfl | rfl <;> omega
  rw [if_neg h2] at h
  by_cases h3 : c.toNat < 0x10000
  · have hlead := toNat_ofNat (by omega : c.toNat / 4096 + 0xE0 < 256)
    simp only [if_pos h3, List.mem_cons, List.not_mem_nil, or_false] at h
    rcases h with rfl | rfl | rfl <;> omega
  · have hlead := toNat_ofNat (by omega : c.toNat / 262144 + 0xF0 < 256)
    simp only [if_neg h3, List.mem_cons, List.not_mem_nil, or_false] at h
    rcases h with rfl | rfl | rfl | rfl <;> omega

/-- A byte that goes on with a character. -/
def isContinuation (b : UInt8) : Bool :=
  0x80 ≤ b.toNat && b.toNat < 0xC0

/-- The first byte of a character begins it and all others go on with it. -/
theorem exists_encodeChar (c : Char) :
    ∃ b more, String.utf8EncodeChar c = b :: more ∧ isContinuation b = false ∧
      ∀ d ∈ more, isContinuation d = true := by
  have hc := toNat_lt c
  have hb0 := toNat_ofNat (by omega : c.toNat % 64 + 0x80 < 256)
  have hb1 := toNat_ofNat (by omega : c.toNat / 64 % 64 + 0x80 < 256)
  have hb2 := toNat_ofNat (by omega : c.toNat / 4096 % 64 + 0x80 < 256)
  simp only [isContinuation, Bool.and_eq_false_iff, Bool.and_eq_true, decide_eq_true_eq,
    decide_eq_false_iff_not]
  rw [utf8EncodeChar_eq]
  by_cases h1 : c.toNat < 0x80
  · have hb := toNat_ofNat (by omega : c.toNat < 256)
    rw [if_pos h1]
    exact ⟨_, _, rfl, by omega, fun d hd => absurd hd List.not_mem_nil⟩
  rw [if_neg h1]
  by_cases h2 : c.toNat < 0x800
  · have hb := toNat_ofNat (by omega : c.toNat / 64 + 0xC0 < 256)
    rw [if_pos h2]
    refine ⟨_, _, rfl, by omega, ?_⟩
    simp only [List.mem_cons, List.not_mem_nil, or_false]
    rintro d rfl
    omega
  rw [if_neg h2]
  by_cases h3 : c.toNat < 0x10000
  · have hb := toNat_ofNat (by omega : c.toNat / 4096 + 0xE0 < 256)
    rw [if_pos h3]
    refine ⟨_, _, rfl, by omega, ?_⟩
    simp only [List.mem_cons, List.not_mem_nil, or_false]
    rintro d (rfl | rfl) <;> omega
  · have hb := toNat_ofNat (by omega : c.toNat / 262144 + 0xF0 < 256)
    rw [if_neg h3]
    refine ⟨_, _, rfl, by omega, ?_⟩
    simp only [List.mem_cons, List.not_mem_nil, or_false]
    rintro d (rfl | rfl | rfl) <;> omega

theorem newline_mem_iff (c : Char) : (10 : UInt8) ∈ String.utf8EncodeChar c ↔ c = '\n' := by
  constructor
  · intro h
    exact Char.toNat_inj.mp (eq_singleton_of_mem (by decide) h).1
  · rintro rfl
    decide

theorem return_mem_iff (c : Char) : (13 : UInt8) ∈ String.utf8EncodeChar c ↔ c = '\r' := by
  constructor
  · intro h
    exact Char.toNat_inj.mp (eq_singleton_of_mem (by decide) h).1
  · rintro rfl
    decide

/-- A text has as many newlines as its bytes. -/
theorem count_encode (text : List Char) : (encode text).count 10 = text.count '\n' := by
  induction text with
  | nil => rfl
  | cons c text ih =>
      rw [encode_cons, List.count_append, ih, List.count_cons]
      by_cases hc : c = '\n'
      · subst hc
        rw [show (String.utf8EncodeChar '\n').count 10 = 1 by decide]
        simp [Nat.add_comm]
      · rw [List.count_eq_zero.mpr (mt (newline_mem_iff c).mp hc)]
        simp [hc]

/-- The bytes with each carriage return before a newline left out. -/
def unixBytes : List UInt8 → List UInt8
  | [] => []
  | [b] => [b]
  | b :: d :: rest =>
    if b = 13 ∧ d = 10 then 10 :: unixBytes rest else b :: unixBytes (d :: rest)

theorem unixBytes_cons {b : UInt8} {rest : List UInt8} (h : b = 13 → rest.head? ≠ some 10) :
    unixBytes (b :: rest) = b :: unixBytes rest := by
  cases rest with
  | nil => rfl
  | cons d rest =>
      rw [unixBytes, if_neg]
      rintro ⟨hb, rfl⟩
      exact h hb rfl

theorem unixBytes_append {bytes : List UInt8} (h : (13 : UInt8) ∉ bytes) (rest : List UInt8) :
    unixBytes (bytes ++ rest) = bytes ++ unixBytes rest := by
  induction bytes with
  | nil => rfl
  | cons b bytes ih =>
      rw [List.mem_cons, not_or] at h
      rw [List.cons_append, unixBytes_cons (fun hb => absurd hb.symm h.1), ih h.2,
        List.cons_append]

/-- Only a newline begins with the byte of a newline. -/
theorem head?_encode_cons {d : Char} (h : d ≠ '\n') (text : List Char) :
    (encode (d :: text)).head? ≠ some 10 := by
  obtain ⟨b, more, hbytes, -⟩ := piece_encode d []
  rw [encode_cons, hbytes, List.cons_append, List.head?_cons]
  intro hb
  refine h ((newline_mem_iff d).mp ?_)
  rw [hbytes, Option.some.inj hb]
  exact List.mem_cons_self

/-- Unix line endings can be made before or after reading. -/
theorem unixBytes_encode (text : List Char) :
    unixBytes (encode text) = encode (dropReturns text) := by
  induction text using dropReturns.induct with
  | case1 => rfl
  | case2 c =>
      by_cases hc : c = '\r'
      · subst hc
        rfl
      · exact unixBytes_append (mt (return_mem_iff c).mp hc) []
  | case3 c d rest h ih =>
      obtain ⟨rfl, rfl⟩ := h
      rw [dropReturns, if_pos ⟨rfl, rfl⟩, encode_cons '\n', ← ih]
      rfl
  | case4 c d rest h ih =>
      rw [dropReturns, if_neg h, encode_cons c (dropReturns _), ← ih, encode_cons c]
      by_cases hc : c = '\r'
      · subst hc
        have hd : d ≠ '\n' := fun hd => h ⟨rfl, hd⟩
        exact unixBytes_cons fun _ => head?_encode_cons hd rest
      · exact unixBytes_append (mt (return_mem_iff c).mp hc) _

end Tighten.Text.Utf8
