import AccessTransformer.Bytes

/-!
# Deflated data

Data that was made smaller by naming its bytes with short codewords, and by naming repetitions by
how far back and how long they are.  The data comes in blocks; a block is stored as it is, or uses
codes that are fixed, or brings its own codes along.

A code is a binary tree with symbols at its leaves, and reading a symbol is a walk from the root.
The codewords follow from their lengths alone: shorter ones come first, and those of one length are
in the order of their symbols.

* `Deflate.inflate?`: the data itself.
-/

namespace AccessTransformer.Deflate

/-! ## Bits -/

/-- A sequence of bits. -/
abbrev Bits := List Bool

/-- The bits of bytes, lowest first. -/
def bitsOf (bytes : Bytes) : Bits :=
  bytes.flatMap fun byte => (List.range 8).map byte.toNat.testBit

/-- The number that some bits write, lowest first, and the bits behind. -/
def number? : Nat → Bits → Option (Nat × Bits)
  | 0, bits => some (0, bits)
  | _ + 1, [] => none
  | n + 1, bit :: bits => (number? n bits).map fun rest => (2 * rest.1 + bit.toNat, rest.2)

/-! ## Codes -/

/-- A code for symbols. -/
inductive Code where
  | empty
  | symbol (symbol : Nat)
  | branch (zero one : Code)

namespace Code

/-- The code with one more codeword. -/
def insert (symbol : Nat) : Bits → Code → Code
  | [], _ => .symbol symbol
  | false :: bits, .branch zero one => .branch (insert symbol bits zero) one
  | true :: bits, .branch zero one => .branch zero (insert symbol bits one)
  | false :: bits, _ => .branch (insert symbol bits .empty) .empty
  | true :: bits, _ => .branch .empty (insert symbol bits .empty)

/-- The symbol whose codeword comes next, and the bits behind it. -/
def read? : Code → Bits → Option (Nat × Bits)
  | .symbol s, bits => some (s, bits)
  | .branch zero one, bit :: bits => if bit then read? one bits else read? zero bits
  | _, _ => none

/-- The code with codewords for symbols of one length, from a number on, and the next number. -/
def insertAll (length : Nat) : List Nat → Nat × Code → Nat × Code
  | [], state => state
  | first :: symbols, (next, code) =>
    insertAll length symbols
      (next + 1, insert first ((List.range length).reverse.map next.testBit) code)

/-- The code whose codewords have the given lengths, by symbol.  A symbol of length zero has
none. -/
def ofLengths (lengths : List Nat) : Code :=
  ((List.range 15).foldl
    (fun state n =>
      let symbols := (lengths.zipIdx.filter fun entry => entry.1 = n + 1).map (·.2)
      insertAll (n + 1) symbols (2 * state.1, state.2))
    (0, .empty)).2

end Code

/-! ## Symbols -/

/-- The symbol that ends a block. -/
def endOfBlock : Nat := 256

/-- The shortest length for each symbol behind the end of the block, and how many bits add to it. -/
def lengths : List (Nat × Nat) :=
  [(3, 0), (4, 0), (5, 0), (6, 0), (7, 0), (8, 0), (9, 0), (10, 0), (11, 1), (13, 1), (15, 1),
    (17, 1), (19, 2), (23, 2), (27, 2), (31, 2), (35, 3), (43, 3), (51, 3), (59, 3), (67, 4),
    (83, 4), (99, 4), (115, 4), (131, 5), (163, 5), (195, 5), (227, 5), (258, 0)]

/-- The shortest distance for each symbol, and how many bits add to it. -/
def distances : List (Nat × Nat) :=
  [(1, 0), (2, 0), (3, 0), (4, 0), (5, 1), (7, 1), (9, 2), (13, 2), (17, 3), (25, 3), (33, 4),
    (49, 4), (65, 5), (97, 5), (129, 6), (193, 6), (257, 7), (385, 7), (513, 8), (769, 8),
    (1025, 9), (1537, 9), (2049, 10), (3073, 10), (4097, 11), (6145, 11), (8193, 12), (12289, 12),
    (16385, 13), (24577, 13)]

/-- The number that a symbol and the bits behind it stand for. -/
def scaled? (table : List (Nat × Nat)) (symbol : Nat) (bits : Bits) : Option (Nat × Bits) := do
  let (least, extra) ← table[symbol]?
  let (more, bits) ← number? extra bits
  return (least + more, bits)

/-- The codes of a block. -/
structure Codes where
  literals : Code
  distances : Code

/-- The codes that need not be brought along. -/
def fixedCodes : Codes where
  literals := .ofLengths (List.replicate 144 8 ++ List.replicate 112 9 ++ List.replicate 24 7
    ++ List.replicate 8 8)
  distances := .ofLengths (List.replicate 30 5)

/-! ## Blocks -/

/-- The data with some of it repeated. -/
def repeated (data : Array UInt8) (distance : Nat) : Nat → Array UInt8
  | 0 => data
  | length + 1 => repeated (data.push (data.getD (data.size - distance) 0)) distance length

/-- The data with a block of codewords, and the bits behind it.  Each round takes a bit at least,
so there are never more rounds than bits. -/
def coded? (codes : Codes) : Nat → Array UInt8 → Bits → Option (Array UInt8 × Bits)
  | 0, _, _ => none
  | rounds + 1, data, bits => do
    let (symbol, bits) ← codes.literals.read? bits
    if symbol < endOfBlock then coded? codes rounds (data.push (UInt8.ofNat symbol)) bits
    else if symbol = endOfBlock then return (data, bits)
    else
      let (length, bits) ← scaled? lengths (symbol - 257) bits
      let (symbol, bits) ← codes.distances.read? bits
      let (distance, bits) ← scaled? distances symbol bits
      if data.size < distance then none
      else coded? codes rounds (repeated data distance length) bits

/-- Lengths of codewords, of which there are still some to come, and the bits behind them. -/
def codeLengths? (code : Code) : Nat → Nat → List Nat → Bits → Option (List Nat × Bits)
  | 0, _, _, _ => none
  | rounds + 1, count, found, bits =>
    if found.length = count then some (found, bits)
    else if count < found.length then none
    else do
      let (symbol, bits) ← code.read? bits
      if symbol < 16 then codeLengths? code rounds count (found ++ [symbol]) bits
      else if symbol = 16 then
        let last ← found.getLast?
        let (more, bits) ← number? 2 bits
        codeLengths? code rounds count (found ++ List.replicate (more + 3) last) bits
      else
        let (more, bits) ← if symbol = 17 then number? 3 bits else number? 7 bits
        let least := if symbol = 17 then 3 else 11
        codeLengths? code rounds count (found ++ List.replicate (more + least) 0) bits

/-- The order in which the lengths for the code of the lengths are written. -/
def lengthOrder : List Nat := [16, 17, 18, 0, 8, 7, 9, 6, 10, 5, 11, 4, 12, 3, 13, 2, 14, 1, 15]

/-- As many lengths of three bits, and the bits behind them. -/
def shortLengths? : Nat → Bits → Option (List Nat × Bits)
  | 0, bits => some ([], bits)
  | n + 1, bits => do
    let (length, bits) ← number? 3 bits
    let (lengths, bits) ← shortLengths? n bits
    return (length :: lengths, bits)

/-- The codes that a block brings along, and the bits behind them. -/
def ownCodes? (bits : Bits) : Option (Codes × Bits) := do
  let (literalCount, bits) ← number? 5 bits
  let (distanceCount, bits) ← number? 5 bits
  let (shortCount, bits) ← number? 4 bits
  let (short, bits) ← shortLengths? (shortCount + 4) bits
  let ordered := (List.range 19).map fun symbol =>
    ((lengthOrder.zip short).lookup symbol).getD 0
  let (found, bits) ← codeLengths? (.ofLengths ordered) 400
    (literalCount + 257 + distanceCount + 1) [] bits
  return (⟨.ofLengths (found.take (literalCount + 257)),
    .ofLengths (found.drop (literalCount + 257))⟩, bits)

/-- The data with a block of bytes as they are, and the bits behind it. -/
def stored? (data : Array UInt8) (bits : Bits) : Option (Array UInt8 × Bits) := do
  let (length, bits) ← number? 16 (bits.drop (bits.length % 8))
  let (_, bits) ← number? 16 bits
  go length data bits
where
  /-- As many bytes as they are. -/
  go : Nat → Array UInt8 → Bits → Option (Array UInt8 × Bits)
    | 0, data, bits => some (data, bits)
    | n + 1, data, bits => do
      let (byte, bits) ← number? 8 bits
      go n (data.push (UInt8.ofNat byte)) bits

/-- The data with all blocks.  Each takes a bit at least. -/
def blocks? : Nat → Array UInt8 → Bits → Option (Array UInt8)
  | 0, _, _ => none
  | rounds + 1, data, bits => do
    let (last, bits) ← number? 1 bits
    let (kind, bits) ← number? 2 bits
    let (data, bits) ←
      if kind = 0 then stored? data bits
      else if kind = 1 then coded? fixedCodes (bits.length + 1) data bits
      else if kind = 2 then do
        let (codes, bits) ← ownCodes? bits
        coded? codes (bits.length + 1) data bits
      else none
    if last = 1 then return data else blocks? rounds data bits

/-- The data that was deflated to the given bytes. -/
def inflate? (bytes : Bytes) : Option Bytes :=
  (blocks? (8 * bytes.length) #[] (bitsOf bytes)).map Array.toList

end AccessTransformer.Deflate
