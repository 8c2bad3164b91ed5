import TapeIL.Bytes

/-!
The BLAKE2b hash function with a digest of 32 bytes and no key.
-/

namespace TapeIL.Blake2b

def initial : Vector UInt64 8 :=
  #v[0x6a09e667f3bcc908, 0xbb67ae8584caa73b, 0x3c6ef372fe94f82b, 0xa54ff53a5f1d36f1,
    0x510e527fade682d1, 0x9b05688c2b3e6c1f, 0x1f83d9abfb41bd6b, 0x5be0cd19137e2179]

/-- The order in which a round takes the words of a block. -/
abbrev Schedule := Vector (Fin 16) 16

def schedules : List Schedule :=
  [#v[0, 1, 2, 3, 4, 5, 6, 7, 8, 9, 10, 11, 12, 13, 14, 15],
    #v[14, 10, 4, 8, 9, 15, 13, 6, 1, 12, 0, 2, 11, 7, 5, 3],
    #v[11, 8, 12, 0, 5, 2, 15, 13, 10, 14, 3, 6, 7, 1, 9, 4],
    #v[7, 9, 3, 1, 13, 12, 11, 14, 2, 6, 5, 10, 4, 0, 15, 8],
    #v[9, 0, 5, 7, 2, 4, 10, 15, 14, 1, 11, 12, 6, 8, 3, 13],
    #v[2, 12, 6, 10, 0, 11, 8, 3, 4, 13, 7, 5, 15, 14, 1, 9],
    #v[12, 5, 1, 15, 14, 13, 4, 10, 0, 7, 6, 3, 9, 2, 8, 11],
    #v[13, 11, 7, 14, 12, 1, 3, 9, 5, 0, 15, 4, 8, 6, 2, 10],
    #v[6, 15, 14, 9, 11, 3, 0, 8, 12, 2, 13, 7, 1, 4, 10, 5],
    #v[10, 2, 8, 4, 7, 6, 1, 5, 15, 11, 9, 14, 3, 12, 13, 0]]

/-- The schedules of the twelve rounds. -/
def rounds : List Schedule :=
  schedules ++ schedules.take 2

def rotateRight (x : UInt64) (n : UInt64) : UInt64 :=
  (x >>> n) ||| (x <<< (64 - n))

abbrev State := Vector UInt64 16

/-- Mixes two words of a block into four words of the state. -/
def mix (v : State) (a b c d : Fin 16) (x y : UInt64) : State :=
  let va := v[a] + v[b] + x
  let vd := rotateRight (v[d] ^^^ va) 32
  let vc := v[c] + vd
  let vb := rotateRight (v[b] ^^^ vc) 24
  let va := va + vb + y
  let vd := rotateRight (vd ^^^ va) 16
  let vc := vc + vd
  let vb := rotateRight (vb ^^^ vc) 63
  (((v.set a va).set b vb).set c vc).set d vd

/-- Mixes all words of a block, along the columns and then along the diagonals of the state. -/
def round (m : State) (v : State) (s : Schedule) : State :=
  let v := mix v 0 4 8 12 m[s[0]] m[s[1]]
  let v := mix v 1 5 9 13 m[s[2]] m[s[3]]
  let v := mix v 2 6 10 14 m[s[4]] m[s[5]]
  let v := mix v 3 7 11 15 m[s[6]] m[s[7]]
  let v := mix v 0 5 10 15 m[s[8]] m[s[9]]
  let v := mix v 1 6 11 12 m[s[10]] m[s[11]]
  let v := mix v 2 7 8 13 m[s[12]] m[s[13]]
  mix v 3 4 9 14 m[s[14]] m[s[15]]

/-- The sixteen words of a block of up to 128 bytes; missing bytes are zero. -/
def words (block : Bytes) : State :=
  Vector.ofFn fun i => UInt64.ofNat (Bytes.ofLittleEndian ((block.drop (8 * i.val)).take 8))

/-- Compresses a block into the hash. `count` is the number of bytes up to the end of the block. -/
def compress (h : Vector UInt64 8) (block : Bytes) (count : Nat) (last : Bool) : Vector UInt64 8 :=
  let low := UInt64.ofNat count
  let high := UInt64.ofNat (count / 0x10000000000000000)
  let start : State := h ++ initial
  let start := (start.set 12 (start[12] ^^^ low)).set 13 (start[13] ^^^ high)
  let start := if last then start.set 14 (start[14] ^^^ 0xffffffffffffffff) else start
  let v := rounds.foldl (round (words block)) start
  Vector.ofFn fun i => h[i] ^^^ v[Fin.castLE (by decide : 8 ≤ 16) i] ^^^ v[Fin.natAdd 8 i]

/-- Compresses a message block by block; the last block may be short or empty. -/
def absorb (h : Vector UInt64 8) (count : Nat) (message : Bytes) : Vector UInt64 8 :=
  let rest := message.drop 128
  if rest.isEmpty then compress h message (count + message.length) true
  else absorb (compress h (message.take 128) (count + 128) false) (count + 128) rest
termination_by message.length
decreasing_by
  rename_i more
  simp only [List.isEmpty_iff, rest, List.drop_eq_nil_iff] at more
  simp only [List.length_drop]
  omega

/-- The digest of a message. -/
def hash (message : Bytes) : Bytes :=
  let start := initial.set 0 (initial[0] ^^^ 0x01010020)
  ((absorb start 0 message).toList.take 4).flatMap fun w => Bytes.littleEndian 8 w.toNat

end TapeIL.Blake2b
