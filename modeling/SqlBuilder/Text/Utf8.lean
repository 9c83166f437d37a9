/-!
# Reading UTF-8 with replacement

Bytes are read as UTF-8; where they are ill formed, each maximal ill-formed part is read as one
replacement character. The reader is a machine with one byte of look at a time: between characters
it is `ready`, inside one it knows how many bytes are missing and in which range the next must be.
-/

namespace SqlBuilder.Text.Utf8

/-- U+FFFD, which stands for an ill-formed part. -/
def replacement : Char := '\uFFFD'

/-- Where the reader stands: between characters, or inside one. -/
inductive State where
  | ready
  | pending (missing : Nat) (low high : Nat) (code : Nat)
  deriving DecidableEq, Repr

/-- Reads a byte between two characters: a whole character, the start of a longer one, or a byte
that starts none. -/
def start (b : Nat) : List Char × State :=
  if b < 0x80 then ([Char.ofNat b], .ready)
  else if b < 0xC2 then ([replacement], .ready)
  else if b < 0xE0 then ([], .pending 1 0x80 0xBF (b - 0xC0))
  else if b = 0xE0 then ([], .pending 2 0xA0 0xBF 0)
  else if b = 0xED then ([], .pending 2 0x80 0x9F 0xD)
  else if b < 0xF0 then ([], .pending 2 0x80 0xBF (b - 0xE0))
  else if b = 0xF0 then ([], .pending 3 0x90 0xBF 0)
  else if b < 0xF4 then ([], .pending 3 0x80 0xBF (b - 0xF0))
  else if b = 0xF4 then ([], .pending 3 0x80 0x8F 4)
  else ([replacement], .ready)

/-- Reads one byte. A byte that cannot continue the character begun before it ends that character
as ill formed and is read afresh. -/
def step : State → Nat → List Char × State
  | .ready, b => start b
  | .pending missing low high code, b =>
    if low ≤ b ∧ b ≤ high then
      let code := code * 64 + (b - 0x80)
      if missing = 1 then ([Char.ofNat code], .ready)
      else ([], .pending (missing - 1) 0x80 0xBF code)
    else
      let (out, state) := start b
      (replacement :: out, state)

/-- Reads the bytes from a state; a character cut off by the end is ill formed. -/
def decodeFrom : State → List Nat → List Char
  | .ready, [] => []
  | .pending .., [] => [replacement]
  | state, b :: rest =>
    let (out, state) := step state b
    out ++ decodeFrom state rest

/-- Reads bytes as UTF-8, with replacement. -/
def decode (bytes : List UInt8) : List Char := decodeFrom .ready (bytes.map UInt8.toNat)

end SqlBuilder.Text.Utf8
