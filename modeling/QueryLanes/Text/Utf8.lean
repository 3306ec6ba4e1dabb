/-!
# UTF-8

Texts are written as UTF-8 and read back. Bytes are cut into `Segment`s, each a character, a
sequence that no character starts with, or a sequence the end of the bytes cut short; strict and
lossy reading are two folds over the segments.

- `decode` accepts bytes all of whose segments are characters and names the first that is not;
- `decodeLossy` writes U+FFFD for each segment that is not a character.
-/

namespace QueryLanes.Utf8

/-- The bytes of a text. -/
def encode (s : String) : List UInt8 := s.toList.flatMap String.utf8EncodeChar

/-- A byte that stands after the first byte of a character. -/
def isTail (b : UInt8) : Bool := 0x80 ≤ b && b ≤ 0xBF

/-- What the first byte of a longer character says: how many bytes follow it, and the least and
the greatest value of the next one. -/
structure Lead where
  following : Nat
  least : UInt8
  greatest : UInt8
deriving DecidableEq, Repr

/-- The bounds leave out overlong forms, surrogates and what lies beyond U+10FFFF. -/
def lead? (b : UInt8) : Option Lead :=
  if 0xC2 ≤ b && b ≤ 0xDF then some ⟨1, 0x80, 0xBF⟩
  else if b == 0xE0 then some ⟨2, 0xA0, 0xBF⟩
  else if b == 0xED then some ⟨2, 0x80, 0x9F⟩
  else if 0xE1 ≤ b && b ≤ 0xEF then some ⟨2, 0x80, 0xBF⟩
  else if b == 0xF0 then some ⟨3, 0x90, 0xBF⟩
  else if b == 0xF4 then some ⟨3, 0x80, 0x8F⟩
  else if 0xF1 ≤ b && b ≤ 0xF3 then some ⟨3, 0x80, 0xBF⟩
  else none

def Lead.admits (l : Lead) (b : UInt8) : Bool := l.least ≤ b && b ≤ l.greatest

def charOf2 (a b : UInt8) : Char := Char.ofNat ((a.toNat - 0xC0) * 64 + (b.toNat - 0x80))

def charOf3 (a b c : UInt8) : Char :=
  Char.ofNat ((a.toNat - 0xE0) * 4096 + (b.toNat - 0x80) * 64 + (c.toNat - 0x80))

def charOf4 (a b c d : UInt8) : Char :=
  Char.ofNat ((a.toNat - 0xF0) * 262144 + (b.toNat - 0x80) * 4096 + (c.toNat - 0x80) * 64
    + (d.toNat - 0x80))

/-- One piece of a byte sequence. -/
inductive Segment where
  /-- A whole character. -/
  | char (c : Char)
  /-- That many bytes that no character starts with. -/
  | invalid (length : Nat)
  /-- The bytes end after the first `length` bytes of a character. -/
  | cut (length : Nat)
deriving DecidableEq, Repr

/-- Bytes cut into segments. An invalid segment ends before the first byte that cannot belong to
the character begun, and that byte starts the next segment. -/
def segments : List UInt8 → List Segment
  | [] => []
  | a :: ra =>
    if a < 0x80 then .char (Char.ofNat a.toNat) :: segments ra
    else match lead? a with
      | none => .invalid 1 :: segments ra
      | some l => match ra with
        | [] => [.cut 1]
        | b :: rb =>
          if !l.admits b then .invalid 1 :: segments (b :: rb)
          else if l.following == 1 then .char (charOf2 a b) :: segments rb
          else match rb with
            | [] => [.cut 2]
            | c :: rc =>
              if !isTail c then .invalid 2 :: segments (c :: rc)
              else if l.following == 2 then .char (charOf3 a b c) :: segments rc
              else match rc with
                | [] => [.cut 3]
                | d :: rd =>
                  if !isTail d then .invalid 3 :: segments (d :: rd)
                  else .char (charOf4 a b c d) :: segments rd

/-- Why bytes are no text: where the first segment that is no character starts, and its length
unless the bytes merely end inside it. -/
structure Fault where
  validUpTo : Nat
  length : Option Nat
deriving DecidableEq, Repr

/-- The characters of the segments from byte `start` on. -/
def collect (start : Nat) : List Segment → Except Fault (List Char)
  | [] => .ok []
  | .char c :: r => (collect (start + c.utf8Size) r).map (c :: ·)
  | .invalid n :: _ => .error ⟨start, some n⟩
  | .cut _ :: _ => .error ⟨start, none⟩

/-- The text that the bytes spell. -/
def decode (bs : List UInt8) : Except Fault String := (collect 0 (segments bs)).map String.ofList

def Segment.lossy : Segment → Char
  | .char c => c
  | .invalid _ | .cut _ => '\ufffd'

/-- The text that the bytes spell, with U+FFFD for what is no character. -/
def decodeLossy (bs : List UInt8) : String := String.ofList ((segments bs).map Segment.lossy)

def Fault.message (f : Fault) : String :=
  match f.length with
  | some n => "invalid utf-8 sequence of " ++ toString n ++ " bytes from index " ++ toString f.validUpTo
  | none => "incomplete utf-8 byte sequence from index " ++ toString f.validUpTo

end QueryLanes.Utf8
