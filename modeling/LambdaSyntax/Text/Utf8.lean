/-
  LambdaSyntax.Text.Utf8 — strict reading of UTF-8.

  Each character takes one to four bytes. The first byte fixes the width, and the second
  one is bounded further where a shorter form, a surrogate or a value past U+10FFFF
  would begin. The first fault ends the reading: it names the bad range, which runs from
  the first byte of the character up to the byte that does not fit.
-/

import LambdaSyntax.Text.Quoted

namespace LambdaSyntax.Text.Utf8

inductive Reason where
  | invalidStart
  | invalidContinuation
  | unexpectedEnd
  deriving DecidableEq, Repr

def Reason.text : Reason → String
  | .invalidStart => "invalid start byte"
  | .invalidContinuation => "invalid continuation byte"
  | .unexpectedEnd => "unexpected end of data"

structure BadBytes where
  reason : Reason
  /-- The first byte of the bad range. -/
  byte : UInt8
  position : Nat
  width : Nat
  deriving DecidableEq, Repr

def byteText (b : UInt8) : String := "0x" ++ String.ofList (hex 2 b.toNat)

def BadBytes.message (e : BadBytes) : String :=
  let place :=
    if e.width = 1 then "byte " ++ byteText e.byte ++ " in position " ++ toString e.position
    else "bytes in position " ++ toString e.position ++ "-" ++ toString (e.position + e.width - 1)
  "'utf-8' codec can't decode " ++ place ++ ": " ++ e.reason.text

/-! ## One character -/

/-- The width of the character that byte `b` starts, and the bounds of its second byte. -/
def lead? (b : Nat) : Option (Nat × Nat × Nat) :=
  if b < 0x80 then some (1, 0, 0)
  else if b < 0xc2 then none
  else if b < 0xe0 then some (2, 0x80, 0xbf)
  else if b = 0xe0 then some (3, 0xa0, 0xbf)
  else if b = 0xed then some (3, 0x80, 0x9f)
  else if b < 0xf0 then some (3, 0x80, 0xbf)
  else if b = 0xf0 then some (4, 0x90, 0xbf)
  else if b < 0xf4 then some (4, 0x80, 0xbf)
  else if b = 0xf4 then some (4, 0x80, 0x8f)
  else none

/-- Takes `left` continuation bytes onto `value`, the first of them between `low` and
    `high`. A fault carries the number of bytes read before it. -/
def continued : Nat → Nat → Nat → Nat → Nat → List UInt8 → Except (Reason × Nat) Nat
  | 0, _, _, _, value, _ => .ok value
  | _ + 1, _, _, read, _, [] => .error (.unexpectedEnd, read)
  | left + 1, low, high, read, value, b :: bs =>
    if low ≤ b.toNat ∧ b.toNat ≤ high then
      continued left 0x80 0xbf (read + 1) (value * 64 + (b.toNat - 0x80)) bs
    else .error (.invalidContinuation, read)

/-- The payload bits of a first byte. -/
def leadBits (width b : Nat) : Nat :=
  if width = 1 then b else if width = 2 then b - 0xc0 else if width = 3 then b - 0xe0 else b - 0xf0

/-- The first character of a text and its width. -/
def first (b : UInt8) (bs : List UInt8) : Except (Reason × Nat) (Char × Nat) :=
  match lead? b.toNat with
  | none => .error (.invalidStart, 1)
  | some (width, low, high) =>
    match continued (width - 1) low high 1 (leadBits width b.toNat) bs with
    | .ok value => .ok (Char.ofNat value, width)
    | .error e => .error e

/-! ## Whole texts -/

/-- Reads the bytes from position `pos` on, after passing over `skip` bytes already read. -/
def decodeFrom : Nat → Nat → List UInt8 → Except BadBytes (List Char)
  | _, _, [] => .ok []
  | skip + 1, pos, _ :: bs => decodeFrom skip (pos + 1) bs
  | 0, pos, b :: bs =>
    match first b bs with
    | .error (reason, width) => .error ⟨reason, b, pos, width⟩
    | .ok (c, width) =>
      match decodeFrom (width - 1) (pos + 1) bs with
      | .ok cs => .ok (c :: cs)
      | .error e => .error e

def decode (bytes : List UInt8) : Except BadBytes (List Char) := decodeFrom 0 0 bytes

end LambdaSyntax.Text.Utf8
