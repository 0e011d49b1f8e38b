import TetraOS.Library.ByteMemory

/-! The ext2 driver (kernel/drivers/ext2.cpp). The bytes that buffers hold may carry more than their value,
such as the place on the disk they were read from. -/

namespace TetraOS.Drivers.Ext2

open Library

variable {σ β : Type}

abbrev Buffer (β : Type) := ℕ → β

/-- The block device, and what the driver takes from the heap: the zero bytes of a new object, and what lies in
and behind a buffer that `kalloc` returns. -/
structure BlockDevice (σ β : Type) where
  val : β → UInt8
  zero : β
  heap : σ → Buffer β
  read : σ → (offset length : ℕ) → Buffer β → ℤ × Buffer β × σ

namespace BlockDevice

variable (D : BlockDevice σ β)

def uint (n : ℕ) (b : Buffer β) (a : ℕ) : ℕ := ByteMemory.load (fun x => D.val (b x)) n a

def new : Buffer β := fun _ => D.zero

end BlockDevice

section Layout

variable (D : BlockDevice σ β) (b : Buffer β)

def sBlocksCount : ℕ := D.uint 4 b 4
def sLogBlockSize : ℕ := D.uint 4 b 24
def sBlocksPerGroup : ℕ := D.uint 4 b 32
def sInodesPerGroup : ℕ := D.uint 4 b 40
def sInodeSize : ℕ := D.uint 2 b 88
def superBlockSize : ℕ := 92

def bgInodeTable : ℕ := D.uint 4 b 8
def groupDescriptorSize : ℕ := 32

def iMode : ℕ := D.uint 2 b 0
def iSize : ℕ := D.uint 4 b 4
def iBlock (k : ℕ) : ℕ := D.uint 4 b (40 + 4 * k)
def inodeSize : ℕ := 256

def entryInode (offset : ℕ) : ℕ := D.uint 4 b offset
def recLen (offset : ℕ) : ℕ := D.uint 2 b (offset + 4)
def nameLen (offset : ℕ) : ℕ := D.uint 1 b (offset + 6)
def entryName (offset i : ℕ) : UInt8 := D.val (b (offset + 8 + i))

end Layout

structure EXT2 (β : Type) where
  superBlock : Buffer β
  blockSize : ℕ
  groupDescs : List (Buffer β)

/-- The product of two `uint32_t`. -/
def EXT2.blockOffset (fs : EXT2 β) (block : ℕ) : ℕ := fs.blockSize * block % 2 ^ 32

section Operations

variable (D : BlockDevice σ β)

def readGroupDescs (blockSize : ℕ) : ℕ → σ → List (Buffer β) × σ
  | 0, s => ([], s)
  | i + 1, s =>
    let (descs, s) := readGroupDescs blockSize i s
    let (_, desc, s) := D.read s (blockSize * 1 + i * groupDescriptorSize) groupDescriptorSize D.new
    (descs ++ [desc], s)

/-- The constructor. There is no result when it divides by zero, or leaves its array of eight groups. -/
def mount (s : σ) : Option (EXT2 β × σ) := do
  let (_, superBlock, s) := D.read s 1024 superBlockSize D.new
  if sBlocksPerGroup D superBlock = 0 ∨ sInodeSize D superBlock = 0 then none else
  let amountGroups := sBlocksCount D superBlock / sBlocksPerGroup D superBlock
  if 8 < amountGroups then none else
  let blockSize := 1024 * 2 ^ sLogBlockSize D superBlock % 2 ^ 32
  let (groupDescs, s) := readGroupDescs D blockSize amountGroups s
  some (⟨superBlock, blockSize, groupDescs⟩, s)

variable (fs : EXT2 β)

def readInode (s : σ) (desc : Buffer β) (index : ℕ) (inode : Buffer β) : Buffer β × σ :=
  (D.read s (fs.blockOffset (bgInodeTable D desc) + inodeSize * index) inodeSize inode).2

def getRootInode (s : σ) (inode : Buffer β) : Option (Buffer β × σ) := do
  let desc ← fs.groupDescs[0]?
  some (readInode D fs s desc 1 inode)

def entryMatches (data : Buffer β) (offset : ℕ) (name : List UInt8) : Bool :=
  name.length == nameLen D data offset &&
    (List.range name.length).all fun i => name.getD i 0 == entryName D data offset i

/-- The scan of a directory block, with `left` entries to go: the entries that are left at its end, and the
offset of the entry there. -/
def scan (data : Buffer β) (name : List UInt8) : ℕ → ℕ → ℕ × ℕ
  | 0, offset => (0, offset)
  | left + 1, offset =>
    if entryMatches D data offset name then (left + 1, offset)
    else scan data name left (offset + recLen D data offset)

def getInodeInDir (s : σ) (dir : Buffer β) (name : List UInt8) : Option (ℤ × Buffer β × σ) := do
  if iMode D dir &&& 0x4000 = 0 then some (-1, dir, s) else
  let (_, data, s) := D.read s (fs.blockOffset (iBlock D dir 0)) fs.blockSize (D.heap s)
  let (left, offset) := scan D data name 10 0
  if left = 0 then some (-1, dir, s) else
  -- `inode - 1` wraps around for the inode 0 of a deleted entry
  let number := (entryInode D data offset + 2 ^ 32 - 1) % 2 ^ 32
  let inodesPerGroup := sInodesPerGroup D fs.superBlock
  if inodesPerGroup = 0 then none else
  let desc ← fs.groupDescs[number / inodesPerGroup]?
  some (0, readInode D fs s desc (number % inodesPerGroup) dir)

/-- What the loop over the path leaves: a result, or the end of the path and the length of the file's name. -/
inductive PathEnd (σ β : Type) where
  | folder (res : ℤ) (dir : Buffer β) (s : σ)
  | file (current size : ℕ) (dir : Buffer β) (s : σ)

def slice (path : List UInt8) (start size : ℕ) : List UInt8 :=
  (List.range size).map fun i => path.getD (start + i) 0

def pathLoop (path : List UInt8) : ℕ → (current size : ℕ) → Buffer β → σ → Option (PathEnd σ β)
  | 0, _, _, _, _ => none
  | fuel + 1, current, size, dir, s =>
    if path.getD current 0 = 0 then some (.file current size dir s)
    else if path.getD current 0 = 47 then
      if current = 0 then pathLoop path fuel (current + 1) size dir s
      else do
        let current := current + 1
        let (res, dir, s) ← getInodeInDir D fs s dir (slice path (current - size - 1) size)
        if res < 0 then some (.folder res dir s)
        else if path.length = current then some (.folder 0 dir s)
        else pathLoop path fuel (current + 1) 1 dir s
    else pathLoop path fuel (current + 1) (size + 1) dir s

def getInodeFromDir (s : σ) (dir : Buffer β) (path : List UInt8) : Option (ℤ × Buffer β × σ) := do
  match ← pathLoop D fs path (path.length + 1) 0 0 dir s with
  | .folder res dir s => some (res, dir, s)
  | .file current size dir s => getInodeInDir D fs s dir (slice path (current - size) size)

def lookup (s : σ) (path : List UInt8) : Option (ℤ × Buffer β × σ) := do
  let (inode, s) ← getRootInode D fs s D.new
  getInodeFromDir D fs s inode path

def getFileSize (s : σ) (path : List UInt8) : Option (ℕ × σ) := do
  let (_, inode, s) ← lookup D fs s path
  some (iSize D inode, s)

def readFile (s : σ) (path : List UInt8) (size : ℕ) (data : Buffer β) : Option (ℤ × Buffer β × σ) := do
  let (_, inode, s) ← lookup D fs s path
  let (_, data, s) := D.read s (fs.blockOffset (iBlock D inode 0)) size data
  some (0, data, s)

end Operations

lemma uint_lt {D : BlockDevice σ β} (n : ℕ) (b : Buffer β) (a : ℕ) : D.uint n b a < 256 ^ n := ByteMemory.load_lt _ _ _

lemma uint_congr {D : BlockDevice σ β} {b b' : Buffer β} {n a : ℕ} (h : ∀ i, a ≤ i → i < a + n → b' i = b i) :
    D.uint n b' a = D.uint n b a :=
  ByteMemory.load_congr fun x hx hx' => congrArg D.val (h x hx hx')

lemma blockOffset_mod {fs : EXT2 β} (hblock : fs.blockSize % 512 = 0) (b : ℕ) : fs.blockOffset b % 512 = 0 := by
  rw [EXT2.blockOffset, Nat.mod_mod_of_dvd _ (by decide), Nat.mul_mod, hblock, Nat.zero_mul, Nat.zero_mod]

lemma blockOffset_lt (fs : EXT2 β) (b : ℕ) : fs.blockOffset b < 2 ^ 32 := Nat.mod_lt _ (by decide)

lemma mount_cases {D : BlockDevice σ β} {fs : EXT2 β} {s s' : σ} (h : mount D s = some (fs, s')) :
    ∃ r superBlock s₁, D.read s 1024 superBlockSize D.new = (r, superBlock, s₁) ∧
      sBlocksPerGroup D superBlock ≠ 0 ∧ sInodeSize D superBlock ≠ 0 ∧
      sBlocksCount D superBlock / sBlocksPerGroup D superBlock ≤ 8 ∧ fs.superBlock = superBlock ∧
      fs.blockSize = 1024 * 2 ^ sLogBlockSize D superBlock % 2 ^ 32 ∧
      readGroupDescs D fs.blockSize (sBlocksCount D superBlock / sBlocksPerGroup D superBlock) s₁ =
        (fs.groupDescs, s') := by
  rw [mount] at h
  generalize hr : D.read s 1024 superBlockSize D.new = answer at h
  obtain ⟨r, superBlock, s₁⟩ := answer
  dsimp only at h
  split_ifs at h with hzero hmany
  obtain ⟨rfl, rfl⟩ := Prod.mk.inj (Option.some.inj h)
  push Not at hzero
  exact ⟨r, superBlock, s₁, rfl, hzero.1, hzero.2, not_lt.mp hmany, rfl, rfl, rfl⟩

lemma getInodeInDir_cases {D : BlockDevice σ β} {fs : EXT2 β} {s s' : σ} {dir dir' : Buffer β} {res : ℤ}
    {name : List UInt8} (h : getInodeInDir D fs s dir name = some (res, dir', s')) :
    (iMode D dir &&& 0x4000 = 0 ∧ res = -1 ∧ dir' = dir ∧ s' = s) ∨
    (iMode D dir &&& 0x4000 ≠ 0 ∧ ∃ r data s₁,
      D.read s (fs.blockOffset (iBlock D dir 0)) fs.blockSize (D.heap s) = (r, data, s₁) ∧
      ((scan D data name 10 0).1 = 0 ∧ res = -1 ∧ dir' = dir ∧ s' = s₁ ∨
      (scan D data name 10 0).1 ≠ 0 ∧ ∃ number desc,
        number = (entryInode D data (scan D data name 10 0).2 + 2 ^ 32 - 1) % 2 ^ 32 ∧
        fs.groupDescs[number / sInodesPerGroup D fs.superBlock]? = some desc ∧ res = 0 ∧
        readInode D fs s₁ desc (number % sInodesPerGroup D fs.superBlock) dir = (dir', s') ∧
        sInodesPerGroup D fs.superBlock ≠ 0)) := by
  rw [getInodeInDir] at h
  generalize hr : D.read s (fs.blockOffset (iBlock D dir 0)) fs.blockSize (D.heap s) = answer at h
  obtain ⟨r, data, s₁⟩ := answer
  dsimp only at h
  split_ifs at h with hmode hleft hgroup
  · simp only [Option.some.injEq, Prod.mk.injEq] at h
    obtain ⟨rfl, rfl, rfl⟩ := h
    exact Or.inl ⟨hmode, rfl, rfl, rfl⟩
  · simp only [Option.some.injEq, Prod.mk.injEq] at h
    obtain ⟨rfl, rfl, rfl⟩ := h
    exact Or.inr ⟨hmode, r, data, s₁, rfl, Or.inl ⟨hleft, rfl, rfl, rfl⟩⟩
  · obtain ⟨desc, hdesc, hread⟩ := Option.bind_eq_some_iff.mp h
    obtain ⟨rfl, hinode⟩ := Prod.mk.inj (Option.some.inj hread)
    exact Or.inr ⟨hmode, r, data, s₁, rfl, Or.inr ⟨hleft, _, desc, rfl, hdesc, rfl, hinode, hgroup⟩⟩

def Serves (D : BlockDevice σ β) (disk : ℕ → β) : Prop := ∀ s offset length buffer,
  ∃ s', D.read s offset length buffer = (0, (fun i => if i < length then disk (offset + i) else buffer i), s')

def faithful (val : β → UInt8) (zero : β) (disk : ℕ → β) : BlockDevice Unit β where
  val := val
  zero := zero
  heap := fun _ _ => zero
  read := fun _ offset length buffer => (0, (fun i => if i < length then disk (offset + i) else buffer i), ())

lemma faithful_serves (val : β → UInt8) (zero : β) (disk : ℕ → β) : Serves (faithful val zero disk) disk :=
  fun _ _ _ _ => ⟨(), rfl⟩

lemma readFile_eq {D : BlockDevice σ β} {fs : EXT2 β} {disk : ℕ → β} (hserves : Serves D disk) {s s₁ : σ}
    {path : List UInt8} {res : ℤ} {inode : Buffer β} (hinode : lookup D fs s path = some (res, inode, s₁))
    (size : ℕ) (data : Buffer β) : ∃ s', readFile D fs s path size data =
      some (0, (fun i => if i < size then disk (fs.blockOffset (iBlock D inode 0) + i) else data i), s') := by
  obtain ⟨s', hread⟩ := hserves s₁ (fs.blockOffset (iBlock D inode 0)) size data
  refine ⟨s', ?_⟩
  simp only [readFile, hinode, Option.bind_eq_bind, Option.bind_some, hread]

end TetraOS.Drivers.Ext2
