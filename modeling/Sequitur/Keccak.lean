/-
The Keccak permutation on 1600 bits and the hash SHA3-256 built from it.

The state is a field of five rows of five lanes, each lane of 64 bits. The message is padded to blocks of 136 bytes, each
of which is added to the first lanes before the state is permuted; the digest is the first 32 bytes of the last state.
-/
namespace Sequitur.Keccak

@[inline] def rotate (w : UInt64) (n : UInt64) : UInt64 := if n = 0 then w else w <<< n ||| w >>> (64 - n)

/-- five lanes, one of each column -/
structure Row where
  a : UInt64
  b : UInt64
  c : UInt64
  d : UInt64
  e : UInt64
  deriving DecidableEq

namespace Row

def zero : Row := ⟨0, 0, 0, 0, 0⟩

@[inline] def add (r s : Row) : Row := ⟨r.a ^^^ s.a, r.b ^^^ s.b, r.c ^^^ s.c, r.d ^^^ s.d, r.e ^^^ s.e⟩

/-- for each column the sum of its neighbours, that on the right rotated by one bit -/
@[inline] def spread (r : Row) : Row :=
  ⟨r.e ^^^ rotate r.b 1, r.a ^^^ rotate r.c 1, r.b ^^^ rotate r.d 1, r.c ^^^ rotate r.e 1, r.d ^^^ rotate r.a 1⟩

/-- joins each lane with the next two -/
@[inline] def chi (r : Row) : Row :=
  ⟨r.a ^^^ (~~~r.b &&& r.c), r.b ^^^ (~~~r.c &&& r.d), r.c ^^^ (~~~r.d &&& r.e), r.d ^^^ (~~~r.e &&& r.a),
    r.e ^^^ (~~~r.a &&& r.b)⟩

end Row

structure State where
  p : Row
  q : Row
  r : Row
  s : Row
  t : Row
  deriving DecidableEq

namespace State

def zero : State := ⟨.zero, .zero, .zero, .zero, .zero⟩

def add (x y : State) : State := ⟨x.p.add y.p, x.q.add y.q, x.r.add y.r, x.s.add y.s, x.t.add y.t⟩

/-- the lanes row by row; those that are missing are zero -/
def ofLanes (ls : List UInt64) : State :=
  let lane (i : Nat) : UInt64 := ls.getD i 0
  ⟨⟨lane 0, lane 1, lane 2, lane 3, lane 4⟩, ⟨lane 5, lane 6, lane 7, lane 8, lane 9⟩,
    ⟨lane 10, lane 11, lane 12, lane 13, lane 14⟩, ⟨lane 15, lane 16, lane 17, lane 18, lane 19⟩,
    ⟨lane 20, lane 21, lane 22, lane 23, lane 24⟩⟩

/-- adds to each lane the parities of two neighbouring columns -/
@[inline] def theta (x : State) : State :=
  let sums := ((((x.p.add x.q).add x.r).add x.s).add x.t).spread
  ⟨x.p.add sums, x.q.add sums, x.r.add sums, x.s.add sums, x.t.add sums⟩

/-- rotates each lane by an amount of its own and moves it about the field -/
@[inline] def rhoPi (x : State) : State :=
  ⟨⟨x.p.a, rotate x.q.b 44, rotate x.r.c 43, rotate x.s.d 21, rotate x.t.e 14⟩,
    ⟨rotate x.p.d 28, rotate x.q.e 20, rotate x.r.a 3, rotate x.s.b 45, rotate x.t.c 61⟩,
    ⟨rotate x.p.b 1, rotate x.q.c 6, rotate x.r.d 25, rotate x.s.e 8, rotate x.t.a 18⟩,
    ⟨rotate x.p.e 27, rotate x.q.a 36, rotate x.r.b 10, rotate x.s.c 15, rotate x.t.d 56⟩,
    ⟨rotate x.p.c 62, rotate x.q.d 55, rotate x.r.e 39, rotate x.s.a 41, rotate x.t.b 2⟩⟩

/-- adds the constant of a round to the first lane -/
@[inline] def iota (x : State) (constant : UInt64) : State := { x with p := { x.p with a := x.p.a ^^^ constant } }

def round (x : State) (constant : UInt64) : State :=
  let x := x.theta.rhoPi
  iota ⟨x.p.chi, x.q.chi, x.r.chi, x.s.chi, x.t.chi⟩ constant

end State

/-- the constants of the twenty-four rounds -/
def roundConstants : List UInt64 :=
  [0x0000000000000001, 0x0000000000008082, 0x800000000000808A, 0x8000000080008000, 0x000000000000808B,
   0x0000000080000001, 0x8000000080008081, 0x8000000000008009, 0x000000000000008A, 0x0000000000000088,
   0x0000000080008009, 0x000000008000000A, 0x000000008000808B, 0x800000000000008B, 0x8000000000008089,
   0x8000000000008003, 0x8000000000008002, 0x8000000000000080, 0x000000000000800A, 0x800000008000000A,
   0x8000000080008081, 0x8000000000008080, 0x0000000080000001, 0x8000000080008008]

def permute (x : State) : State := roundConstants.foldl State.round x

/-- bytes per block -/
def rate : Nat := 136

/-- fills up to whole blocks; the first added bits mark the hash, the last one the end -/
def pad (message : List UInt8) : List UInt8 :=
  let missing := rate - message.length % rate
  if missing = 1 then message ++ [0x86]
  else message ++ 0x06 :: (List.replicate (missing - 2) 0 ++ [0x80])

/-- eight bytes to a lane, the lowest first -/
def lanes : List UInt8 → List UInt64
  | a :: b :: c :: d :: e :: f :: g :: h :: rest =>
    (a.toUInt64 ||| b.toUInt64 <<< 8 ||| c.toUInt64 <<< 16 ||| d.toUInt64 <<< 24 ||| e.toUInt64 <<< 32 |||
      f.toUInt64 <<< 40 ||| g.toUInt64 <<< 48 ||| h.toUInt64 <<< 56) :: lanes rest
  | _ => []

/-- takes up block after block; `count` is their number -/
def absorb : (count : Nat) → State → List UInt64 → State
  | 0, x, _ => x
  | count + 1, x, ls => absorb count (permute (x.add (.ofLanes (ls.take (rate / 8))))) (ls.drop (rate / 8))

/-- the bytes of a lane, the lowest first -/
def bytes (w : UInt64) : List UInt8 := (List.range 8).map fun i => (w >>> UInt64.ofNat (8 * i)).toUInt8

/-- SHA3-256 -/
def sha3 (message : List UInt8) : List UInt8 :=
  let padded := pad message
  let x := absorb (padded.length / rate) .zero (lanes padded)
  [x.p.a, x.p.b, x.p.c, x.p.d].flatMap bytes

end Sequitur.Keccak
