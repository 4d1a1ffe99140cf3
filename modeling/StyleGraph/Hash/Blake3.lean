import StyleGraph.Number.Power
import StyleGraph.Text.Quoted
import StyleGraph.Text.Utf8

/-!
# The hash function BLAKE3

The input is cut into chunks of 1024 bytes and every chunk into blocks of 64; a chunk's blocks are
compressed one after the other, and the chunks' values are joined in a binary tree whose left
subtrees are complete. Only the hash of 32 bytes without a key is needed here.
-/

set_option autoImplicit false

namespace StyleGraph.Hash.Blake3

/-- The chaining value at the beginning. -/
def initial : Array UInt32 :=
  #[0x6a09e667, 0xbb67ae85, 0x3c6ef372, 0xa54ff53a, 0x510e527f, 0x9b05688c, 0x1f83d9ab, 0x5be0cd19]

/-- The order in which a round takes the words of the round before. -/
def schedule : List Nat := [2, 6, 3, 10, 7, 0, 4, 13, 1, 11, 12, 5, 9, 14, 15, 8]

/-- Marks the first block of a chunk. -/
def chunkStart : UInt32 := 1

/-- Marks the last block of a chunk. -/
def chunkEnd : UInt32 := 2

/-- Marks a block that joins two values. -/
def parent : UInt32 := 4

/-- Marks the last compression. -/
def root : UInt32 := 8

/-- Rotation of a word to the right. -/
def rotateRight (word count : UInt32) : UInt32 := (word >>> count) ||| (word <<< (32 - count))

/-- The word at an index. -/
def word (words : Array UInt32) (index : Nat) : UInt32 := words.getD index 0

/-- Mixes two words of a block into four words of the state. -/
def mix (state : Array UInt32) (a b c d : Nat) (x y : UInt32) : Array UInt32 :=
  let va := word state a + word state b + x
  let vd := rotateRight (word state d ^^^ va) 16
  let vc := word state c + vd
  let vb := rotateRight (word state b ^^^ vc) 12
  let va := va + vb + y
  let vd := rotateRight (vd ^^^ va) 8
  let vc := vc + vd
  let vb := rotateRight (vb ^^^ vc) 7
  (((state.setIfInBounds a va).setIfInBounds b vb).setIfInBounds c vc).setIfInBounds d vd

/-- The places in the state that a round mixes: columns, then diagonals. -/
def places : List (Nat × Nat × Nat × Nat) :=
  [(0, 4, 8, 12), (1, 5, 9, 13), (2, 6, 10, 14), (3, 7, 11, 15),
   (0, 5, 10, 15), (1, 6, 11, 12), (2, 7, 8, 13), (3, 4, 9, 14)]

/-- One round. -/
def round (block state : Array UInt32) : Array UInt32 :=
  (places.foldl (fun (state, index) (a, b, c, d) =>
    (mix state a b c d (word block index) (word block (index + 1)), index + 2)) (state, 0)).1

/-- The words of a block in the order of the next round. -/
def permute (block : Array UInt32) : Array UInt32 :=
  (schedule.map fun index => word block index).toArray

/-- Seven rounds, each with the words in another order. -/
def rounds : Nat → Array UInt32 → Array UInt32 → Array UInt32
  | 0, _, state => state
  | count + 1, block, state => rounds count (permute block) (round block state)

/-- The chaining value after a block. -/
def compress (chaining block : Array UInt32) (counter : Nat) (length flags : UInt32) :
    Array UInt32 :=
  let state := chaining ++ initial.extract 0 4 ++
    #[counter.toUInt32, (counter / Number.twoTo 32).toUInt32, length, flags]
  let state := rounds 7 block state
  ((List.range 8).map fun index => word state index ^^^ word state (index + 8)).toArray

/-- Bytes as words, least byte first; missing bytes are zero. -/
def wordsOf (bytes : List UInt8) : Array UInt32 :=
  let padded := (bytes ++ List.replicate (64 - bytes.length) 0).toArray
  ((List.range 16).map fun index =>
    (List.range 4).foldr (fun offset acc =>
      acc * 256 + (padded.getD (4 * index + offset) 0).toUInt32) 0).toArray

/-- Lists of at most `size` items, in order. -/
def slices {α : Type} (size : Nat) : Nat → List α → List (List α)
  | 0, _ => []
  | fuel + 1, items =>
    match items.drop size with
    | [] => [items]
    | rest => items.take size :: slices size fuel rest

/-- The value of a chunk; `last` marks its last block if it is the whole input. -/
def chunkValue (counter : Nat) (last : UInt32) (bytes : List UInt8) : Array UInt32 :=
  go chunkStart initial (slices 64 17 bytes)
where
  go (start : UInt32) (chaining : Array UInt32) : List (List UInt8) → Array UInt32
    | [] => chaining
    | [block] =>
      compress chaining (wordsOf block) counter block.length.toUInt32 (start ||| chunkEnd ||| last)
    | block :: rest => go 0 (compress chaining (wordsOf block) counter 64 start) rest

/-- The size of a left subtree of `count` chunks: the greatest power of two below `count`. -/
def leftSize (count : Nat) : Nat := Number.twoTo (Nat.log2 (count - 1))

/-- The value of a tree over chunks that are numbered from `counter` on. -/
def treeValue : Nat → Nat → UInt32 → List (List UInt8) → Array UInt32
  | 0, _, _, _ => initial
  | _, counter, last, [] => chunkValue counter last []
  | _, counter, last, [chunk] => chunkValue counter last chunk
  | fuel + 1, counter, last, chunks =>
    let left := leftSize chunks.length
    let block := treeValue fuel counter 0 (chunks.take left) ++
      treeValue fuel (counter + left) 0 (chunks.drop left)
    compress initial block 0 64 (parent ||| last)

/-- The words of the hash. -/
def hashWords (bytes : List UInt8) : Array UInt32 :=
  let chunks := slices 1024 (bytes.length / 1024 + 1) bytes
  treeValue (chunks.length + 1) 0 root chunks

/-- The hash, two hexadecimal digits a byte. -/
def hexChars (bytes : List UInt8) : List Char :=
  (hashWords bytes).toList.flatMap fun word =>
    (List.range 4).flatMap fun index =>
      let byte := (word.toNat / Number.twoTo (8 * index)) % 256
      [Text.hexDigit (byte / 16), Text.hexDigit (byte % 16)]

/-- The hash of a text, in hexadecimal digits. -/
def hexOfText (text : String) : String := String.ofList (hexChars (Text.Utf8.encode text.toList))

end StyleGraph.Hash.Blake3
