/-!
UTF-8: writing characters as bytes and reading them back, with the cause and place of the first
fault, or with a replacement character for each fault.
-/

namespace Walkthrough.Text.Utf8

/-- Bytes of a file or a message. -/
abbrev Bytes := List UInt8

def units (n : Nat) : List Nat :=
  if n < 0x80 then [n]
  else if n < 0x800 then [0xC0 + n / 64, 0x80 + n % 64]
  else if n < 0x10000 then [0xE0 + n / 4096, 0x80 + n / 64 % 64, 0x80 + n % 64]
  else [0xF0 + n / 262144, 0x80 + n / 4096 % 64, 0x80 + n / 64 % 64, 0x80 + n % 64]

def encodeChar (c : Char) : Bytes := (units c.toNat).map Nat.toUInt8

def encode (s : List Char) : Bytes := s.flatMap encodeChar

/-- Why bytes are not UTF-8. -/
inductive Cause where
  | invalidStart
  | invalidContinuation
  | unexpectedEnd
  deriving DecidableEq, Repr

def Cause.message : Cause → String
  | invalidStart => "invalid start byte"
  | invalidContinuation => "invalid continuation byte"
  | unexpectedEnd => "unexpected end of data"

/-- What stands first: a character, or a fault and the number of bytes it spans, with the bytes
behind. -/
inductive Next where
  | char (c : Char) (rest : Bytes)
  | fault (cause : Cause) (span : Nat) (rest : Bytes)

/-- Reads `need` further bytes, the first of them between two bounds, after `span` bytes that
spell `acc`. -/
def more (need low high acc span : Nat) (bs : Bytes) : Next :=
  match need, bs with
  | 0, bs => .char (Char.ofNat acc) bs
  | _ + 1, [] => .fault .unexpectedEnd span []
  | need + 1, b :: bs =>
    if low ≤ b.toNat ∧ b.toNat ≤ high then
      more need 0x80 0xBF (acc * 64 + (b.toNat - 0x80)) (span + 1) bs
    else .fault .invalidContinuation span (b :: bs)

/-- Reads on from a first byte. -/
def next (b : UInt8) (bs : Bytes) : Next :=
  let n := b.toNat
  if n < 0x80 then .char (Char.ofNat n) bs
  else if n < 0xC2 then .fault .invalidStart 1 bs
  else if n < 0xE0 then more 1 0x80 0xBF (n - 0xC0) 1 bs
  else if n = 0xE0 then more 2 0xA0 0xBF 0 1 bs
  else if n = 0xED then more 2 0x80 0x9F 0xD 1 bs
  else if n < 0xF0 then more 2 0x80 0xBF (n - 0xE0) 1 bs
  else if n = 0xF0 then more 3 0x90 0xBF 0 1 bs
  else if n < 0xF4 then more 3 0x80 0xBF (n - 0xF0) 1 bs
  else if n = 0xF4 then more 3 0x80 0x8F 4 1 bs
  else .fault .invalidStart 1 bs

def Next.rest : Next → Bytes
  | char _ bs => bs
  | fault _ _ bs => bs

theorem length_more (need low high acc span : Nat) (bs : Bytes) :
    (more need low high acc span bs).rest.length ≤ bs.length := by
  induction need generalizing low high acc span bs with
  | zero => simp [more, Next.rest]
  | succ need ih =>
    cases bs with
    | nil => simp [more, Next.rest]
    | cons b bs =>
      unfold more
      split
      · exact Nat.le_succ_of_le (ih ..)
      · simp [Next.rest]

theorem length_next (b : UInt8) (bs : Bytes) : (next b bs).rest.length ≤ bs.length := by
  unfold next
  dsimp only
  repeat' split
  all_goals first | exact length_more .. | exact Nat.le_refl _

/-- Bytes that are not UTF-8: the first byte of the first fault, its place, how many bytes the
fault spans, and why. -/
structure Fault where
  byte : UInt8
  place : Nat
  span : Nat
  cause : Cause
  deriving DecidableEq, Repr

/-- A number from nought to 255 in base sixteen, two digits. -/
def hexByte (b : UInt8) : String :=
  let ds := Nat.toDigits 16 b.toNat
  String.ofList (List.replicate (2 - ds.length) '0' ++ ds)

def Fault.message (f : Fault) : String :=
  if f.span = 1 then
    s!"'utf-8' codec can't decode byte 0x{hexByte f.byte} in position {f.place}: " ++
      f.cause.message
  else
    s!"'utf-8' codec can't decode bytes in position {f.place}-{f.place + f.span - 1}: " ++
      f.cause.message

def decodeFrom (place : Nat) : Bytes → Except Fault (List Char)
  | [] => .ok []
  | b :: bs =>
    match _h : next b bs with
    | .fault cause span _ => .error ⟨b, place, span, cause⟩
    | .char c r => (decodeFrom (place + c.utf8Size) r).map (c :: ·)
termination_by bs => bs.length
decreasing_by
  have := length_next b bs
  rw [_h] at this
  simp only [Next.rest] at this
  simp only [List.length_cons]; omega

def decode (bs : Bytes) : Except Fault (List Char) := decodeFrom 0 bs

/-- The text that bytes spell, with U+FFFD for each fault. -/
def decodeLossy : Bytes → List Char
  | [] => []
  | b :: bs =>
    match _h : next b bs with
    | .fault _ _ r => '\uFFFD' :: decodeLossy r
    | .char c r => c :: decodeLossy r
termination_by bs => bs.length
decreasing_by
  all_goals
    have := length_next b bs
    rw [_h] at this
    simp only [Next.rest] at this
    simp only [List.length_cons]; omega

end Walkthrough.Text.Utf8
