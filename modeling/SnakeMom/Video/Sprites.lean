import SnakeMom.Lib.Packed

/-!
# `spriteBank.sv`: the pictures

A bank is a packed array with an ascending range of rows.  The literal that fills it is
shorter than the array, so its rows are the last ones, and the rows before them are zero.

* `playerBank`: the player in four directions from row 96 on, and the ghost from row 224.
* `coinBank`: eight rows of four bits, of which two leave the module.
* `levelData`: the pictures of two mazes from row 220 on.  `color_mapper` takes the bank
  as a parameter.
-/

namespace SnakeMom

open Packed

namespace playerBank

def spriteData : List (BitVec 32) := [
  0b00000000000000000000000000000000,
  0b00000000000000000000000000000000,
  0b00000000000000000000000000000000,
  0b00000000000000000000000000000000,
  0b00000000000000000000000000000000,
  0b00000000000000000000000000000000,
  0b00000000000001111111000000000000,
  0b00000000000111111111111000000000,
  0b00000000011111100011111110000000,
  0b00000000111111100011111111000000,
  0b00000011111111100011111111100000,
  0b00000111111111111111111110000000,
  0b00001111111111111111111000000000,
  0b00001111111111111111110000000000,
  0b00001111111111111111000000000000,
  0b00011111111111111000000011000000,
  0b00011111111111111111111100000000,
  0b00011111111111111000000011000000,
  0b00001111111111111111000000000000,
  0b00001111111111111111110000000000,
  0b00001111111111111111111000000000,
  0b00000111111111111111111110000000,
  0b00000011111111111111111111100000,
  0b00000000111111111111111111000000,
  0b00000000011111111111111110000000,
  0b00000000000111111111111000000000,
  0b00000000000001111111000000000000,
  0b00000000000000000000000000000000,
  0b00000000000000000000000000000000,
  0b00000000000000000000000000000000,
  0b00000000000000000000000000000000,
  0b00000000000000000000000000000000,

  0b00000000000000000000000000000000,
  0b00000000000000000000000000000000,
  0b00000000000000000000000000000000,
  0b00000000000000000000000000000000,
  0b00000000000000000000000000000000,
  0b00000000000000000000000000000000,
  0b00000000000011111110000000000000,
  0b00000000011111111111100000000000,
  0b00000001111111000111111000000000,
  0b00000011111111000111111100000000,
  0b00000111111111000111111111000000,
  0b00000001111111111111111111100000,
  0b00000000011111111111111111110000,
  0b00000000001111111111111111110000,
  0b00000000000011111111111111110000,
  0b00000011000000011111111111111000,
  0b00000000111111111111111111111000,
  0b00000011000000011111111111111000,
  0b00000000000011111111111111110000,
  0b00000000001111111111111111110000,
  0b00000000011111111111111111110000,
  0b00000001111111111111111111100000,
  0b00000111111111111111111111000000,
  0b00000011111111111111111100000000,
  0b00000001111111111111111000000000,
  0b00000000011111111111100000000000,
  0b00000000000011111110000000000000,
  0b00000000000000000000000000000000,
  0b00000000000000000000000000000000,
  0b00000000000000000000000000000000,
  0b00000000000000000000000000000000,
  0b00000000000000000000000000000000,

  0b00000000000000000000000000000000,
  0b00000000000000000000000000000000,
  0b00000000000000000000000000000000,
  0b00000000000000000000000000000000,
  0b00000000000000000000000000000000,
  0b00000000000000000000000000000000,
  0b00000000000100000000001000000000,
  0b00000000011100010100001110000000,
  0b00000000111100010100001111000000,
  0b00000011111100001000001111100000,
  0b00000111111110001000011111100000,
  0b00001111111110001000011111110000,
  0b00001111111111001000111111110000,
  0b00001111111111001000111111110000,
  0b00011000111111101001111111110000,
  0b00011000111111101011111111110000,
  0b00011000111111111111111111111000,
  0b00001111111111111111111111110000,
  0b00001111111111111111111111110000,
  0b00001111111111111111111111110000,
  0b00000111111111111111111111100000,
  0b00000011111111111111111111100000,
  0b00000000111111111111111111000000,
  0b00000000011111111111111110000000,
  0b00000000000111111111111000000000,
  0b00000000000001111111000000000000,
  0b00000000000000000000000000000000,
  0b00000000000000000000000000000000,
  0b00000000000000000000000000000000,
  0b00000000000000000000000000000000,
  0b00000000000000000000000000000000,
  0b00000000000000000000000000000000,

  0b00000000000000000000000000000000,
  0b00000000000000000000000000000000,
  0b00000000000000000000000000000000,
  0b00000000000000000000000000000000,
  0b00000000000000000000000000000000,
  0b00000000000000000000000000000000,
  0b00000000000001111111000000000000,
  0b00000000000111111111111000000000,
  0b00000000011111111111111110000000,
  0b00000000111111111111111111000000,
  0b00000011111111111111111111100000,
  0b00000111111111111111111111100000,
  0b00001111111111111111111111110000,
  0b00001111111111111111111111110000,
  0b00001111111111111111111111110000,
  0b00011111111111111111111100011000,
  0b00011111111111110101111100011000,
  0b00011111111111100101111100011000,
  0b00001111111111000100111111110000,
  0b00001111111111000100111111110000,
  0b00001111111110000100011111110000,
  0b00000111111110000100011111100000,
  0b00000011111100000100001111100000,
  0b00000000111100001010001111000000,
  0b00000000011100001010001110000000,
  0b00000000000100000000001000000000,
  0b00000000000000000000000000000000,
  0b00000000000000000000000000000000,
  0b00000000000000000000000000000000,
  0b00000000000000000000000000000000,
  0b00000000000000000000000000000000,
  0b00000000000000000000000000000000,

  0b00000000000000000000000000000000,
  0b00000000000000000000000000000000,
  0b00000000000000000000000000000000,
  0b00000000000000000000000000000000,
  0b00000000000000000000000000000000,
  0b00011000000111100011110000110000,
  0b00011100011111110111111001110000,
  0b00001111111111111111111111100000,
  0b00000001111111111111111110000000,
  0b00000011111111111111111111000000,
  0b00000111111111111111111111100000,
  0b00000111110011111111100111100000,
  0b00001111101101111111011011110000,
  0b00001111101101111111011011110000,
  0b00001111101101111111011011110000,
  0b00011111110011111111100111111000,
  0b00001111111111111111111111110000,
  0b00000111111111111111111111100000,
  0b00000111111111111111111111100000,
  0b00001111111111111111111111110000,
  0b00011111111111111111111111111000,
  0b00011110111111110111111110111000,
  0b00011100011111100011111100011000,
  0b00011100001111100001111000011000,
  0b00011000000111000000111000011000,
  0b00001100001101100001101100110000,
  0b00000000000000000000000000000000,
  0b00000000000000000000000000000000,
  0b00000000000000000000000000000000,
  0b00000000000000000000000000000000,
  0b00000000000000000000000000000000,
  0b00000000000000000000000000000000]

def spriteOut (renderSelect : BitVec 8) : BitVec 32 :=
  (fill 256 spriteData).getD renderSelect.toNat 0

theorem length_spriteData : spriteData.length = 160 := by decide +kernel

/-- The pictures begin at row 96. -/
theorem spriteOut_of_toNat {renderSelect : BitVec 8} {k : Nat}
    (h : renderSelect.toNat = 96 + k) : spriteOut renderSelect = spriteData.getD k 0 := by
  have hfirst : 256 - spriteData.length = 96 := by rw [length_spriteData]
  rw [spriteOut, h, ← hfirst, getD_fill]

end playerBank

namespace coinBank

def coinData : List (BitVec 4) := [
  0b1111,
  0b1111,
  0b1111,
  0b1111,
  0b0000]

/-- The output port is two bits wide. -/
def spriteOut (renderSelect : BitVec 3) : BitVec 2 :=
  ((fill 8 coinData).getD renderSelect.toNat 0).setWidth 2

end coinBank

namespace levelData

/-! The five rows that the pictures of the mazes consist of. -/

def solid : BitVec 416 := BitVec.allOnes 416

def border : BitVec 416 := BitVec.allOnes 50 ++ 0#316 ++ BitVec.allOnes 50

def pillars : BitVec 416 :=
  BitVec.allOnes 50 ++ 0#28 ++ BitVec.allOnes 36 ++ 0#28 ++ BitVec.allOnes 36 ++ 0#28 ++
    BitVec.allOnes 4 ++ 0#28 ++ BitVec.allOnes 36 ++ 0#28 ++ BitVec.allOnes 36 ++ 0#28 ++
    BitVec.allOnes 50

def post : BitVec 416 :=
  BitVec.allOnes 50 ++ 0#156 ++ BitVec.allOnes 4 ++ 0#156 ++ BitVec.allOnes 50

def blocks : BitVec 416 :=
  BitVec.allOnes 50 ++ 0#28 ++ BitVec.allOnes 68 ++ 0#28 ++ BitVec.allOnes 68 ++ 0#28 ++
    BitVec.allOnes 68 ++ 0#28 ++ BitVec.allOnes 50

/-- The rows of the literal, by how often each one is repeated.  The last run of the first
picture is the first one of the second. -/
def runs : List (Nat × BitVec 416) := [
  (18, solid),
  (28, border), (36, pillars), (28, post), (36, pillars), (28, border),
  (68, blocks),
  (28, border), (36, pillars), (28, post), (36, pillars), (28, border),
  (22, solid),
  (28, border), (36, pillars), (28, post), (36, pillars), (28, border),
  (68, blocks),
  (28, border), (36, pillars), (28, post), (36, pillars), (28, border),
  (4, solid)]

def levelRows : List (BitVec 416) := expand runs

def levelOut (renderSelect : BitVec 10) : BitVec 416 :=
  (fill 1024 levelRows).getD renderSelect.toNat 0

theorem length_levelRows : levelRows.length = 804 := by
  rw [levelRows, length_expand]
  rfl

/-- The pictures begin at row 220. -/
theorem levelOut_of_toNat {renderSelect : BitVec 10} {k : Nat}
    (h : renderSelect.toNat = 220 + k) : levelOut renderSelect = runAt 0 runs k := by
  have hfirst : 1024 - levelRows.length = 220 := by rw [length_levelRows]
  rw [levelOut, h, ← hfirst, getD_fill, levelRows, getD_expand]

end levelData

end SnakeMom
