import ClassCoverage.Bytes

/-! Compressed data. Any compressed text can be expanded; new texts are packed into blocks that are
stored as they are, which every reader of compressed data understands. -/
namespace ClassCoverage.Deflate

/-- Why expanding stopped before the end. -/
inductive Stop where
  | inputEnded
  | corrupt
  deriving DecidableEq, Repr

/-- The bits left of the byte that was begun, the bytes behind it, and the output so far. -/
structure State where
  bits : List Bool := []
  input : Bytes
  output : Array UInt8 := #[]

abbrev Expanding := ExceptT Stop (StateM State)

def bitsOfByte (byte : UInt8) :
    List Bool := (List.range 8).map fun index => byte.toNat.testBit index

def nextBit : Expanding Bool := do
  let state ← get
  match state.bits, state.input with
  | bit :: bits, _ =>
    set { state with bits := bits }
    return bit
  | [], byte :: input =>
    set { state with bits := (bitsOfByte byte).drop 1, input := input }
    return byte.toNat.testBit 0
  | [], [] => throw .inputEnded

/-- A number of a fixed width, least significant bit first. -/
def nextNumber : (width : Nat) → Expanding Nat
  | 0 => return 0
  | width + 1 => do
    let bit ← nextBit
    return bit.toNat + 2 * (← nextNumber width)

/-- A byte. The rest of the byte that was begun has to be dropped before. -/
def nextByte : Expanding UInt8 := do
  let state ← get
  match state.input with
  | byte :: input =>
    set { state with input := input }
    return byte
  | [] => throw .inputEnded

def emit (byte : UInt8) : Expanding Unit :=
  modify fun state => { state with output := state.output.push byte }

/-- The bits of a code lead from the root to its symbol. -/
inductive CodeTree where
  | missing
  | symbol (value : Nat)
  | fork (zero one : CodeTree)

namespace CodeTree

def insert (value : Nat) : List Bool → CodeTree → CodeTree
  | [], _ => symbol value
  | false :: bits, fork zero one => fork (zero.insert value bits) one
  | true :: bits, fork zero one => fork zero (one.insert value bits)
  | false :: bits, _ => fork (insert value bits missing) missing
  | true :: bits, _ => fork missing (insert value bits missing)

def next : CodeTree → Expanding Nat
  | missing => throw .corrupt
  | symbol value => return value
  | fork zero one => do if ← nextBit then one.next else zero.next

end CodeTree

def maximumLength : Nat := 15

/-- The bits of a code, most significant bit first. -/
def codeBits (length code : Nat) : List Bool :=
  ((List.range length).map fun index => code.testBit index).reverse

/-- Codes of one length follow each other in symbol order, and come before the longer ones. -/
def codesFrom (lengths : List Nat) : (longer : List Nat) → (code : Nat) → List (Nat × List Bool)
  | [], _ => []
  | length :: longer, code =>
    let symbols := (List.range lengths.length).filter fun symbol => lengths.getD symbol 0 = length
    let codes := symbols.zipIdx.map fun (symbol, index) => (symbol, codeBits length (code + index))
    codes ++ codesFrom lengths longer (2 * (code + symbols.length))

/-- How much of the room of all codes is used, in codes of the maximum length. -/
def usedRoom (lengths : List Nat) : Nat :=
  (lengths.map fun length => if length = 0 then 0 else 2 ^ (maximumLength - length)).sum

/-- Too many codes are refused. Too few are only let through if there is a single bit of code. -/
def isSound (lengths : List Nat) (maySpare : Bool) : Bool :=
  let room := 2 ^ maximumLength
  let longest := lengths.foldl max 0
  usedRoom lengths = room ||
    (usedRoom lengths < room && maySpare && longest ≤ 1)

def treeOf (lengths : List Nat) : CodeTree :=
  (codesFrom lengths ((List.range maximumLength).map (· + 1)) 0).foldl
    (fun tree (symbol, bits) => tree.insert symbol bits) .missing

/-- The tree of the codes with the given lengths. -/
def soundTree (lengths : List Nat) (maySpare : Bool) : Expanding CodeTree :=
  if isSound lengths maySpare then return treeOf lengths else throw .corrupt

/-- The least value of each symbol for lengths, with the number of bits that are added to it. -/
def lengthTable : List (Nat × Nat) :=
  [(3, 0), (4, 0), (5, 0), (6, 0), (7, 0), (8, 0), (9, 0), (10, 0), (11, 1),
    (13, 1), (15, 1), (17, 1),
    (19, 2), (23, 2), (27, 2), (31, 2), (35, 3), (43, 3), (51, 3), (59, 3),
    (67, 4), (83, 4), (99, 4),
    (115, 4), (131, 5), (163, 5), (195, 5), (227, 5), (258, 0)]

/-- The same for distances. -/
def distanceTable : List (Nat × Nat) :=
  [(1, 0), (2, 0), (3, 0), (4, 0), (5, 1), (7, 1), (9, 2), (13, 2), (17, 3),
    (25, 3), (33, 4), (49, 4),
    (65, 5), (97, 5), (129, 6), (193, 6), (257, 7), (385, 7), (513, 8), (769, 8),
    (1025, 9), (1537, 9),
    (2049, 10), (3073, 10), (4097, 11), (6145, 11), (8193, 12), (12289, 12),
    (16385, 13), (24577, 13)]

def nextTabled (table : List (Nat × Nat)) (index : Nat) : Expanding Nat := do
  match table[index]? with
  | some (least, width) => return least + (← nextNumber width)
  | none => throw .corrupt

/-- Repeats output from a distance back, one byte after another. -/
def copyBack (distance : Nat) : (length : Nat) → Expanding Unit
  | 0 => return ()
  | length + 1 => do
    let output := (← get).output
    emit (output.getD (output.size - distance) 0)
    copyBack distance length

def endOfBlock : Nat := 256

/-- Expands symbols up to the end of the block. The room bounds their number. -/
def expandSymbols (literals distances : CodeTree) : (room : Nat) → Expanding Unit
  | 0 => throw .inputEnded
  | room + 1 => do
    let symbol ← literals.next
    if symbol < endOfBlock then
      emit (UInt8.ofNat symbol)
      expandSymbols literals distances room
    else if symbol = endOfBlock then return ()
    else
      let length ← nextTabled lengthTable (symbol - endOfBlock - 1)
      let distance ← nextTabled distanceTable (← distances.next)
      if (← get).output.size < distance then throw .corrupt
      copyBack distance length
      expandSymbols literals distances room

def copyBytes : (count : Nat) → Expanding Unit
  | 0 => return ()
  | count + 1 => do
    emit (← nextByte)
    copyBytes count

/-- A number of two bytes. -/
def nextPair : Expanding Nat := do
  return Bytes.toNat [← nextByte, ← nextByte]

/-- A block that is not compressed. Its length is given twice. -/
def expandStored : Expanding Unit := do
  modify fun state => { state with bits := [] }
  let length ← nextPair
  let complement ← nextPair
  if length + complement ≠ 65535 then throw .corrupt
  copyBytes length

def fixedLengths : List Nat :=
  List.replicate 144 8 ++ List.replicate 112 9 ++ List.replicate 24 7 ++ List.replicate 8 8

def fixedLiterals : CodeTree := treeOf fixedLengths

def fixedDistances : CodeTree := treeOf (List.replicate 32 5)

/-- The order in which the lengths of the codes for lengths are given. -/
def lengthOrder : List Nat := [16, 17, 18, 0, 8, 7, 9, 6, 10, 5, 11, 4, 12, 3, 13, 2, 14, 1, 15]

def nextNumbers (width : Nat) : (count : Nat) → Expanding (List Nat)
  | 0 => return []
  | count + 1 => do
    let number ← nextNumber width
    return number :: (← nextNumbers width count)

/-- The lengths a symbol stands for, given those before it. -/
def lengthsOf (before : List Nat) (symbol : Nat) : Expanding (List Nat) := do
  if symbol < 16 then return [symbol]
  else if symbol = 16 then
    match before.getLast? with
    | some length => return List.replicate (3 + (← nextNumber 2)) length
    | none => throw .corrupt
  else if symbol = 17 then return List.replicate (3 + (← nextNumber 3)) 0
  else return List.replicate (11 + (← nextNumber 7)) 0

/-- Reads lengths until there are as many as there should be. -/
def nextLengths (tree : CodeTree) (count : Nat) : (room : Nat) → List Nat → Expanding (List Nat)
  | 0, before => if before.length = count then return before else throw .corrupt
  | room + 1, before => do
    if count < before.length then throw .corrupt
    else if before.length = count then return before
    else
      let more ← lengthsOf before (← tree.next)
      nextLengths tree count room (before ++ more)

/-- A block that starts with the lengths of its codes. -/
def expandTabled (room : Nat) : Expanding Unit := do
  let literalCount := 257 + (← nextNumber 5)
  let distanceCount := 1 + (← nextNumber 5)
  let lengthCount := 4 + (← nextNumber 4)
  if 286 < literalCount ∨ 30 < distanceCount then throw .corrupt
  let given := lengthOrder.zip (← nextNumbers 3 lengthCount)
  let tree ← soundTree ((List.range 19).map fun symbol => (given.lookup symbol).getD 0) false
  let lengths ← nextLengths tree (literalCount + distanceCount) (literalCount + distanceCount) []
  if lengths.getD endOfBlock 0 = 0 then throw .corrupt
  let literals ← soundTree (lengths.take literalCount) true
  let distances ← soundTree (lengths.drop literalCount) true
  expandSymbols literals distances room

/-- Expands blocks up to the last one. The room bounds their number and their lengths. -/
def expandBlocks (size : Nat) : (room : Nat) → Expanding Unit
  | 0 => throw .inputEnded
  | room + 1 => do
    let last ← nextBit
    match ← nextNumber 2 with
    | 0 => expandStored
    | 1 => expandSymbols fixedLiterals fixedDistances size
    | 2 => expandTabled size
    | _ => throw .corrupt
    if last then return () else expandBlocks size room

/-- The expanded text, as far as it goes if the compressed text ends early. There is none if the
compressed text makes no sense. -/
def expand? (compressed : Bytes) : Option Bytes :=
  let size := 8 * compressed.length + 1
  let (result, state) := (expandBlocks size size).run.run { input := compressed }
  match result with
  | .ok () => some state.output.toList
  | .error .inputEnded => some state.output.toList
  | .error .corrupt => none

def blockLimit : Nat := 65535

def storedBlock (last : Bool) (content : Bytes) : Bytes :=
  (if last then 1 else 0) :: Bytes.ofNat 2 content.length ++
    Bytes.ofNat 2 (65535 - content.length) ++ content

/-- Cuts a text into stored blocks. -/
def pack (content : Bytes) : Bytes :=
  if content.length ≤ blockLimit then storedBlock true content
  else storedBlock false (content.take blockLimit) ++ pack (content.drop blockLimit)
termination_by content.length
decreasing_by simp [blockLimit] at *; omega

end ClassCoverage.Deflate
