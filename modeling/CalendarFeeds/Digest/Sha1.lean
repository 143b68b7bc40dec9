/-! # SHA-1 — the digest behind name-based identifiers

    A message is padded with a one bit, zeros and its length in bits to whole blocks of 64
    octets.  Each block is expanded to 80 words and mixed into five words of state. -/

namespace CalendarFeeds.Sha1

structure State where
  a : UInt32
  b : UInt32
  c : UInt32
  d : UInt32
  e : UInt32
  deriving DecidableEq, Repr

def initial : State :=
  ⟨0x67452301, 0xefcdab89, 0x98badcfe, 0x10325476, 0xc3d2e1f0⟩

/-- Rotates a word to the left by fewer than 32 places. -/
def rotate (w : UInt32) (places : UInt32) : UInt32 :=
  (w <<< places) ||| (w >>> (32 - places))

/-- The octets of a number, most significant first. -/
def bigEndian : Nat → Nat → List UInt8
  | 0, _ => []
  | count + 1, n => bigEndian count (n / 256) ++ [UInt8.ofNat (n % 256)]

def padded (message : List UInt8) : List UInt8 :=
  message ++ 0x80 :: List.replicate ((119 - message.length % 64) % 64) 0
    ++ bigEndian 8 (8 * message.length)

/-- Octets as words of four. -/
def words : List UInt8 → List UInt32
  | w :: x :: y :: z :: rest =>
    ((w.toUInt32 <<< 24) ||| (x.toUInt32 <<< 16) ||| (y.toUInt32 <<< 8) ||| z.toUInt32)
      :: words rest
  | _ => []

/-- The next word of the schedule, from the latest words, the last one first. -/
def nextWord (latest : List UInt32) : UInt32 :=
  rotate (latest.getD 2 0 ^^^ latest.getD 7 0 ^^^ latest.getD 13 0 ^^^ latest.getD 15 0) 1

/-- Adds so many words to a schedule, the last word first. -/
def extend : Nat → List UInt32 → List UInt32
  | 0, ws => ws
  | n + 1, ws => extend n (nextWord ws :: ws)

/-- The 80 words of a block. -/
def schedule (block : List UInt32) : List UInt32 :=
  (extend 64 block.reverse).reverse

/-- The mixing function and the constant of a round. -/
def mix (round : Nat) (b c d : UInt32) : UInt32 :=
  if round < 20 then ((b &&& c) ||| (~~~b &&& d)) + 0x5a827999
  else if round < 40 then (b ^^^ c ^^^ d) + 0x6ed9eba1
  else if round < 60 then ((b &&& c) ||| (b &&& d) ||| (c &&& d)) + 0x8f1bbcdc
  else (b ^^^ c ^^^ d) + 0xca62c1d6

def step (round : Nat) (s : State) (w : UInt32) : State :=
  ⟨rotate s.a 5 + mix round s.b s.c s.d + s.e + w, s.a, rotate s.b 30, s.c, s.d⟩

/-- Rounds on the words of a schedule, from a round number on. -/
def rounds : Nat → State → List UInt32 → State
  | _, s, [] => s
  | n, s, w :: ws => rounds (n + 1) (step n s w) ws

def block (s : State) (words : List UInt32) : State :=
  let t := rounds 0 s (schedule words)
  ⟨s.a + t.a, s.b + t.b, s.c + t.c, s.d + t.d, s.e + t.e⟩

/-- Mixes so many blocks of 16 words into the state. -/
def blocks : Nat → State → List UInt32 → State
  | 0, s, _ => s
  | n + 1, s, ws => blocks n (block s (ws.take 16)) (ws.drop 16)

/-- The 20 octets of a message's digest. -/
def digest (message : List UInt8) : List UInt8 :=
  let ws := words (padded message)
  let s := blocks (ws.length / 16) initial ws
  [s.a, s.b, s.c, s.d, s.e].flatMap fun w => bigEndian 4 w.toNat

end CalendarFeeds.Sha1
