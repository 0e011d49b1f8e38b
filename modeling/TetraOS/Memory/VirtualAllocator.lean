import TetraOS.Memory.AddressSpace

/-! The kernel heap (kernel/memory/virtual_allocator.cpp, kernel/libk/list.cpp). Its bookkeeping lives
in the heap pages themselves and is reached through the page tables. -/

namespace TetraOS.Memory

open Library.ByteMemory

variable {α : Type}

namespace FreeSpace

def getStatus (s : State α) (node : ℕ) : Option ℕ := loadBytes s 8 node
def setStatus (s : State α) (node status : ℕ) : Option (State α) := storeBytes s 8 node status

def getSize (s : State α) (node : ℕ) : Option ℕ := (getStatus s node).map fun status => status >>> 1

def setSize (s : State α) (node size : ℕ) : Option (State α) := do
  let status ← getStatus s node
  setStatus s node (size <<< 1 % 2 ^ 64 ||| status &&& 1)

def isLast (s : State α) (node : ℕ) : Option Bool := (getStatus s node).map fun status => status &&& 1 == 1

def setLast (s : State α) (node : ℕ) : Option (State α) := do
  let status ← getStatus s node
  setStatus s node (status ||| 1)

def getNext (s : State α) (node : ℕ) : Option ℕ := loadBytes s 8 ((node + 8) % 2 ^ 64)

end FreeSpace

open FreeSpace

def memcpy (s : State α) (dest src : ℕ) : ℕ → Option (State α)
  | 0 => some s
  | n + 1 => do
    let s ← memcpy s dest src n
    let b ← loadByte s (src + n)
    storeByte s (dest + n) b

def virtualAllocatorInit (k : FrameAlloc α) (img : Image) (s : State α) : Option (State α) := do
  let (frame, s) ← s.kallocFrame k
  let s ← mapPage k s img.virtualHeapStart frame 0xF
  let s ← setSize s img.virtualHeapStart pageSize
  let s ← setLast s img.virtualHeapStart
  some { s with
    freeList := img.virtualHeapStart
    virtualAllocEnd := (img.virtualHeapStart + pageSize) % 2 ^ 64 }

abbrev sizeofFreeSpace : ℕ := 16
abbrev magic : ℕ := 0xFEEBDAEDDEADBEEF

-- The loops of `kalloc` run on fuel; running out of it is no result.
def searchList (s : State α) (size : ℕ) : ℕ → ℕ → Option ℕ
  | 0, _ => none
  | fuel + 1, current => do
    let last ← isLast s current
    let free ← getSize s current
    if !last && free < size then
      let next ← getNext s current
      searchList s size fuel next
    else some current

def growList (k : FrameAlloc α) (current size : ℕ) : ℕ → State α → Option (State α)
  | 0, _ => none
  | fuel + 1, s => do
    let free ← getSize s current
    if free < (size + sizeofFreeSpace * 2) % 2 ^ 64 then
      let (newFrame, s) ← s.kallocFrame k
      let s ← mapPage k s s.virtualAllocEnd newFrame 0xF
      let free ← getSize s current
      let s ← setSize s current ((free + pageSize) % 2 ^ 64)
      growList k current size fuel { s with virtualAllocEnd := (s.virtualAllocEnd + pageSize) % 2 ^ 64 }
    else some s

-- The last part of `kalloc`, which assumes that `current` has enough space.
def splitBlock (s : State α) (current size : ℕ) : Option (ℕ × State α) := do
  let oldSize ← getSize s current
  let s ← storeBytes s 8 current size
  let s ← storeBytes s 8 ((current + 8) % 2 ^ 64) magic
  let resultPointer := (current + 16) % 2 ^ 64
  let newFreeList := (resultPointer + size) % 2 ^ 64
  let s ← setLast s newFreeList
  let s ← setSize s newFreeList ((oldSize + (2 ^ 64 - (size + 16) % 2 ^ 64)) % 2 ^ 64)
  some (resultPointer, { s with freeList := newFreeList })

def kalloc (k : FrameAlloc α) (fuel : ℕ) (s : State α) (size : ℕ) : Option (ℕ × State α) := do
  let current ← searchList s size fuel s.freeList
  let last ← isLast s current
  let free ← getSize s current
  let s ← if last && free < (size + sizeofFreeSpace * 2) % 2 ^ 64 then growList k current size fuel s else some s
  splitBlock s current size

end TetraOS.Memory
