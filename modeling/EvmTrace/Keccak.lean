import EvmTrace.Bytes

/-!
The Keccak-256 digest: a sponge of rate 136 bytes over the 24-round permutation of 25 lanes of
64 bits, with the padding that ends a message in `0x01 … 0x80`.
-/

set_option autoImplicit false

namespace EvmTrace.Keccak

/-- A 64-bit lane of the state. -/
abbrev Lane := BitVec 64

/-- The state: the lane of column `x` and row `y` stands at `5 * y + x`. -/
abbrev State := List Lane

/-- The lane at a column and a row, both counted modulo five. -/
def lane (state : State) (x y : Nat) : Lane :=
  state.getD (5 * (y % 5) + x % 5) 0

/-- The state whose lanes are given by column and row. -/
def tabulate (f : Nat → Nat → Lane) : State :=
  (List.range 25).map fun i => f (i % 5) (i / 5)

/-- The rotation of each lane, in the order of the state. -/
def rotations : List Nat :=
  [0, 1, 62, 28, 27, 36, 44, 6, 55, 20, 3, 10, 43, 25, 39, 41, 45, 15, 21, 8, 18, 2, 61, 56, 14]

/-- The constant that each round adds to the first lane. -/
def roundConstants : List Lane :=
  [0x0000000000000001, 0x0000000000008082, 0x800000000000808A, 0x8000000080008000,
   0x000000000000808B, 0x0000000080000001, 0x8000000080008081, 0x8000000000008009,
   0x000000000000008A, 0x0000000000000088, 0x0000000080008009, 0x000000008000000A,
   0x000000008000808B, 0x800000000000008B, 0x8000000000008089, 0x8000000000008003,
   0x8000000000008002, 0x8000000000000080, 0x000000000000800A, 0x800000008000000A,
   0x8000000080008081, 0x8000000000008080, 0x0000000080000001, 0x8000000080008008]

/-- Adds to each lane the parities of two neighbouring columns. -/
def theta (state : State) : State :=
  let parity := (List.range 5).map fun x =>
    lane state x 0 ^^^ lane state x 1 ^^^ lane state x 2 ^^^ lane state x 3 ^^^ lane state x 4
  tabulate fun x y =>
    lane state x y ^^^ (parity.getD ((x + 4) % 5) 0 ^^^ (parity.getD ((x + 1) % 5) 0).rotateLeft 1)

/-- Rotates each lane by its own amount. -/
def rho (state : State) : State :=
  tabulate fun x y => (lane state x y).rotateLeft (rotations.getD (5 * y + x) 0)

/-- Moves the lanes to their new places. -/
def pi (state : State) : State :=
  tabulate fun x y => lane state (x + 3 * y) x

/-- Combines each lane with the next two of its row. -/
def chi (state : State) : State :=
  tabulate fun x y => lane state x y ^^^ (~~~lane state (x + 1) y &&& lane state (x + 2) y)

/-- Adds a round constant to the first lane. -/
def iota (constant : Lane) : State → State
  | [] => []
  | first :: rest => (first ^^^ constant) :: rest

def permute (state : State) : State :=
  roundConstants.foldl (fun s constant => iota constant (chi (pi (rho (theta s))))) state

/-- The number of message bytes that a block takes in. -/
def rate : Nat := 136

/-- The lane held by eight bytes, least significant byte first. -/
def laneOfBytes (bytes : Bytes) : Lane :=
  BitVec.ofNat 64 (bytes.foldr (fun byte total => byte.toNat + 256 * total) 0)

/-- The message followed by its padding, a whole number of blocks. -/
def pad (message : Bytes) : Bytes :=
  let missing := rate - message.length % rate
  if missing = 1 then message ++ [0x81]
  else message ++ [0x01] ++ List.replicate (missing - 2) 0 ++ [0x80]

/-- Adds a block to the first lanes of the state and permutes it. -/
def absorb (state : State) (block : Bytes) : State :=
  permute (tabulate fun x y =>
    let i := 5 * y + x
    lane state x y ^^^
      if i < rate / 8 then laneOfBytes ((block.drop (8 * i)).take 8) else 0)

def absorbAll (padded : Bytes) : State :=
  (List.range (padded.length / rate)).foldl
    (fun state i => absorb state ((padded.drop (rate * i)).take rate)) (List.replicate 25 0)

/-- The digest of a message: the first 32 bytes of the final state. -/
def digest (message : Bytes) : Hash :=
  let state := absorbAll (pad message)
  ⟨(List.range 32).map fun i =>
    UInt8.ofNat (state.getD (i / 8) 0 >>> (8 * (i % 8))).toNat, by simp⟩

end EvmTrace.Keccak
