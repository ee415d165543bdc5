/-
UTF-8 as a sequence of pieces.

A byte string is cut into pieces from the left: each piece is either one whole character or a
run of bytes that cannot begin or finish one.  A bad piece is as long as possible while still
being the beginning of some well-formed character (one byte when there is no such beginning), so
cutting never swallows a byte that could start the next character.

Both ways of reading bytes are views of this one list.  Strict reading takes the characters and
stops at the first bad piece, reporting where it lies and why; lenient reading puts U+FFFD in the
place of each bad piece and never fails.
-/
namespace Tighten.Text.Utf8

/-! ### Writing -/

/-- The bytes of a text. -/
def encode (text : List Char) : List UInt8 :=
  text.flatMap String.utf8EncodeChar

/-- The number of bytes of a text. -/
def size (text : List Char) : Nat :=
  (text.map Char.utf8Size).foldr (· + ·) 0

/-! ### Pieces -/

/-- Why a run of bytes is not a character. -/
inductive Fault where
  /-- No character begins with this byte. -/
  | startByte
  /-- The byte after the run cannot continue the character that the run begins. -/
  | continuationByte
  /-- The input ends inside a character. -/
  | truncated
deriving DecidableEq, Repr

/-- One step of reading. -/
inductive Piece where
  | char (c : Char)
  | bad (length : Nat) (fault : Fault)
deriving DecidableEq, Repr

/-- The number of bytes a piece takes up. -/
def Piece.length : Piece → Nat
  | .char c => c.utf8Size
  | .bad n _ => n

/-- The shape that a leading byte announces: how many bytes follow, which payload bits the
leading byte holds, and the range the second byte must lie in. -/
structure Lead where
  following : Nat
  payload : Nat
  low : Nat
  high : Nat

/-- The shape announced by a byte, if some character of more than one byte begins with it.  The
narrowed second-byte ranges exclude overlong forms, surrogates and values above U+10FFFF. -/
def lead? (b : UInt8) : Option Lead :=
  let n := b.toNat
  if n < 0xC2 then none
  else if n < 0xE0 then some ⟨1, n - 0xC0, 0x80, 0xBF⟩
  else if n = 0xE0 then some ⟨2, 0, 0xA0, 0xBF⟩
  else if n = 0xED then some ⟨2, n - 0xE0, 0x80, 0x9F⟩
  else if n < 0xF0 then some ⟨2, n - 0xE0, 0x80, 0xBF⟩
  else if n = 0xF0 then some ⟨3, 0, 0x90, 0xBF⟩
  else if n < 0xF4 then some ⟨3, n - 0xF0, 0x80, 0xBF⟩
  else if n = 0xF4 then some ⟨3, n - 0xF0, 0x80, 0x8F⟩
  else none

/-- Reads `following` more bytes, the first of them between `low` and `high` and the others any
continuation bytes; `taken` bytes of the character have been read and hold `value`. -/
def tail : (following taken value low high : Nat) → List UInt8 → Piece
  | 0, _, value, _, _, _ => .char (Char.ofNat value)
  | _ + 1, taken, _, _, _, [] => .bad taken .truncated
  | k + 1, taken, value, low, high, b :: rest =>
    if low ≤ b.toNat ∧ b.toNat ≤ high then
      tail k (taken + 1) (value * 64 + (b.toNat - 0x80)) 0x80 0xBF rest
    else
      .bad taken .continuationByte

/-- The piece that begins with `b`, of which `rest` is what follows. -/
def piece (b : UInt8) (rest : List UInt8) : Piece :=
  if b.toNat < 0x80 then
    .char (Char.ofNat b.toNat)
  else
    match lead? b with
    | none => .bad 1 .startByte
    | some l => tail l.following 1 l.payload l.low l.high rest

/-- The pieces of a byte string, of which the first `skip` bytes are already accounted for. -/
def piecesFrom : (skip : Nat) → List UInt8 → List Piece
  | _, [] => []
  | skip + 1, _ :: rest => piecesFrom skip rest
  | 0, b :: rest => piece b rest :: piecesFrom ((piece b rest).length - 1) rest

/-- The pieces of a byte string, in order. -/
def pieces (bytes : List UInt8) : List Piece :=
  piecesFrom 0 bytes

/-! ### Strict reading -/

/-- The first place where bytes are not UTF-8. -/
structure DecodeError where
  /-- The offset of the first bad byte. -/
  offset : Nat
  /-- The bad bytes. -/
  bytes : List UInt8
  fault : Fault
deriving DecidableEq, Repr

/-- Collects characters up to the first bad piece; `offset` bytes were read before. -/
def collect (offset : Nat) : List Piece → Except (Nat × Nat × Fault) (List Char)
  | [] => .ok []
  | .char c :: rest =>
    match collect (offset + c.utf8Size) rest with
    | .ok cs => .ok (c :: cs)
    | .error e => .error e
  | .bad n fault :: _ => .error (offset, n, fault)

/-- The text that the bytes are the UTF-8 of. -/
def decode (bytes : List UInt8) : Except DecodeError (List Char) :=
  match collect 0 (pieces bytes) with
  | .ok cs => .ok cs
  | .error (offset, n, fault) => .error ⟨offset, (bytes.drop offset).take n, fault⟩

/-! ### Lenient reading -/

/-- What stands in the text for a piece. -/
def Piece.shown : Piece → Char
  | .char c => c
  | .bad _ _ => Char.ofNat 0xFFFD

/-- The text of the bytes, with one U+FFFD for each bad piece. -/
def decodeLossy (bytes : List UInt8) : List Char :=
  (pieces bytes).map Piece.shown

/-! ### Wording -/

/-- The two lower-case hexadecimal digits of a byte. -/
def hexByte (b : UInt8) : String :=
  let digit (n : Nat) : Char := if n < 10 then Char.ofNat (48 + n) else Char.ofNat (87 + n)
  String.ofList [digit (b.toNat / 16), digit (b.toNat % 16)]

/-- The reason in words. -/
def Fault.message : Fault → String
  | .startByte => "invalid start byte"
  | .continuationByte => "invalid continuation byte"
  | .truncated => "unexpected end of data"

/-- One bad byte is shown with its value, several with the first and last offset. -/
def DecodeError.message (e : DecodeError) : String :=
  match e.bytes with
  | [b] =>
    s!"'utf-8' codec can't decode byte 0x{hexByte b} in position {e.offset}: " ++ e.fault.message
  | bs =>
    s!"'utf-8' codec can't decode bytes in position {e.offset}-{e.offset + bs.length - 1}: "
      ++ e.fault.message

end Tighten.Text.Utf8
