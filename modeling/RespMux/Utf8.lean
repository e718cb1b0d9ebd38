import RespMux.Bytes

/-!
# Reading bytes as UTF-8

`pieces` cuts a byte string into characters and faults. A byte that cannot start a character is
a fault of width one; a character that breaks off is a fault as wide as the bytes that still
fitted; bytes that stop in the middle of a character are one last fault. No byte is lost: the
widths of the pieces add up to the length.

`text?` accepts the byte strings without a fault and reports the first fault of the others;
`lossy` puts the replacement character U+FFFD in the place of each fault.
-/

set_option autoImplicit false

namespace RespMux.Utf8

/-! ## The shape of a character -/

/-- For the first byte of a character, the range of each byte that has to follow it. -/
def follow (lead : UInt8) : Option (List (UInt8 × UInt8)) :=
  if lead ≤ 0x7F then some []
  else if 0xC2 ≤ lead ∧ lead ≤ 0xDF then some [(0x80, 0xBF)]
  else if lead = 0xE0 then some [(0xA0, 0xBF), (0x80, 0xBF)]
  else if lead = 0xED then some [(0x80, 0x9F), (0x80, 0xBF)]
  else if 0xE1 ≤ lead ∧ lead ≤ 0xEF then some [(0x80, 0xBF), (0x80, 0xBF)]
  else if lead = 0xF0 then some [(0x90, 0xBF), (0x80, 0xBF), (0x80, 0xBF)]
  else if 0xF1 ≤ lead ∧ lead ≤ 0xF3 then some [(0x80, 0xBF), (0x80, 0xBF), (0x80, 0xBF)]
  else if lead = 0xF4 then some [(0x80, 0x8F), (0x80, 0xBF), (0x80, 0xBF)]
  else none

/-- How many bytes in a row lie in the ranges. -/
def fitting : List (UInt8 × UInt8) → Bytes → Nat
  | (lo, hi) :: ranges, b :: bs => if lo ≤ b ∧ b ≤ hi then fitting ranges bs + 1 else 0
  | _, _ => 0

theorem fitting_le_bytes (ranges : List (UInt8 × UInt8)) (bs : Bytes) :
    fitting ranges bs ≤ bs.length := by
  induction ranges generalizing bs with
  | nil => simp [fitting]
  | cons r ranges ih =>
      cases bs with
      | nil => simp [fitting]
      | cons b bs =>
          obtain ⟨lo, hi⟩ := r
          simp only [fitting, List.length_cons]
          split
          · have := ih bs; omega
          · omega

/-- The code point of a lead byte and the bytes after it: the payload bits of the lead byte,
then six bits of each byte. -/
def codePoint (lead : UInt8) (tail : Bytes) : Nat :=
  let high : Nat :=
    match tail.length with
    | 0 => lead.toNat
    | 1 => lead.toNat % 32
    | 2 => lead.toNat % 16
    | _ => lead.toNat % 8
  tail.foldl (fun n b => n * 64 + b.toNat % 64) high

/-! ## Pieces -/

/-- A piece of a byte string read as text. -/
inductive Piece where
  /-- a character, written in `width` bytes -/
  | char (c : Char) (width : Nat)
  /-- `width` bytes that are no character -/
  | invalid (width : Nat)
  /-- the first `width` bytes of a character whose other bytes are missing -/
  | cut (width : Nat)
  deriving DecidableEq, Repr

/-- How many bytes the piece stands for. -/
def Piece.width : Piece → Nat
  | .char _ w => w
  | .invalid w => w
  | .cut w => w

/-- How many bytes the pieces stand for. -/
def totalWidth : List Piece → Nat
  | [] => 0
  | p :: ps => p.width + totalWidth ps

/-- The piece that starts with `lead`, and how many bytes of `rest` belong to it. -/
def firstPiece (lead : UInt8) (rest : Bytes) : Piece × Nat :=
  match follow lead with
  | none => (.invalid 1, 0)
  | some ranges =>
      let n := fitting ranges rest
      if n = ranges.length then (.char (Char.ofNat (codePoint lead (rest.take n))) (n + 1), n)
      else if (rest.drop n).isEmpty then (.cut (n + 1), n)
      else (.invalid (n + 1), n)

/-- The pieces of a byte string after its first `skip` bytes. -/
def piecesFrom : Nat → Bytes → List Piece
  | _, [] => []
  | skip + 1, _ :: rest => piecesFrom skip rest
  | 0, lead :: rest => (firstPiece lead rest).1 :: piecesFrom (firstPiece lead rest).2 rest

/-- The pieces of a byte string. -/
def pieces (bs : Bytes) : List Piece := piecesFrom 0 bs

theorem firstPiece_width (lead : UInt8) (rest : Bytes) :
    (firstPiece lead rest).1.width = (firstPiece lead rest).2 + 1 := by
  unfold firstPiece
  split
  · rfl
  · dsimp only
    split
    · rfl
    · split <;> rfl

theorem firstPiece_le (lead : UInt8) (rest : Bytes) :
    (firstPiece lead rest).2 ≤ rest.length := by
  unfold firstPiece
  split
  · exact Nat.zero_le _
  · rename_i ranges _
    have h := fitting_le_bytes ranges rest
    dsimp only
    split
    · exact h
    · split <;> exact h

theorem piecesFrom_width (bs : Bytes) (skip : Nat) (h : skip ≤ bs.length) :
    totalWidth (piecesFrom skip bs) + skip = bs.length := by
  induction bs generalizing skip with
  | nil => simp_all [piecesFrom, totalWidth]
  | cons b bs ih =>
      cases skip with
      | zero =>
          have hw := firstPiece_width b bs
          have hl := ih _ (firstPiece_le b bs)
          simp only [piecesFrom, totalWidth, List.length_cons]
          omega
      | succ skip =>
          have hl := ih skip (by simpa using h)
          simp only [piecesFrom, List.length_cons]
          omega

/-- Cutting a byte string into pieces loses no byte. -/
theorem pieces_width (bs : Bytes) : totalWidth (pieces bs) = bs.length := by
  have := piecesFrom_width bs 0 (Nat.zero_le _)
  simpa [pieces] using this

/-! ## Text -/

/-- Why a byte string is not UTF-8: where the first fault lies, and how wide it is; a fault
without a width is a character that the end of the bytes cuts short. -/
structure Fault where
  index : Nat
  width : Option Nat
  deriving DecidableEq, Repr

/-- The text of a fault. -/
def Fault.message (f : Fault) : String :=
  match f.width with
  | some w => "invalid utf-8 sequence of " ++ toString w ++ " bytes from index " ++ toString f.index
  | none => "incomplete utf-8 byte sequence from index " ++ toString f.index

/-- The first fault among pieces, the first of which lies at `index`. -/
def faultFrom? : Nat → List Piece → Option Fault
  | _, [] => none
  | index, .char _ w :: ps => faultFrom? (index + w) ps
  | index, .invalid w :: _ => some ⟨index, some w⟩
  | index, .cut _ :: _ => some ⟨index, none⟩

/-- The first fault of a byte string. -/
def fault? (bs : Bytes) : Option Fault := faultFrom? 0 (pieces bs)

/-- The text that the bytes encode, with U+FFFD in the place of each fault. -/
def lossy (bs : Bytes) : String :=
  String.ofList <| (pieces bs).map fun
    | .char c _ => c
    | _ => '\uFFFD'

/-- The text that the bytes encode, or their first fault. -/
def text? (bs : Bytes) : Except Fault String :=
  match fault? bs with
  | some f => .error f
  | none => .ok (lossy bs)

end RespMux.Utf8
