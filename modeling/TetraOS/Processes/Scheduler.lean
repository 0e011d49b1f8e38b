import TetraOS.Memory.VirtualAllocator

/-! Starting a process (kernel/process/scheduler.cpp, kernel/process/elf.h). -/

namespace TetraOS.Processes

open Memory

variable {α : Type}

/-- `get_file_size` and `read_file`, for the file that is started. -/
structure FileSystem (α : Type) where
  getFileSize : State α → Option (ℕ × State α)
  readFile : State α → (size data : ℕ) → Option (ℤ × State α)

section Elf

variable (s : State α) (header : ℕ)

def eEntry : Option ℕ := loadBytes s 8 (header + 24)
def ePhoff : Option ℕ := loadBytes s 8 (header + 32)
def ePhnum : Option ℕ := loadBytes s 2 (header + 56)

def pType : Option ℕ := loadBytes s 4 header
def pOffset : Option ℕ := loadBytes s 8 (header + 8)
def pVaddr : Option ℕ := loadBytes s 8 (header + 16)
def pFilesz : Option ℕ := loadBytes s 8 (header + 32)
def pMemsz : Option ℕ := loadBytes s 8 (header + 40)

def sizeofPhdr : ℕ := 56

end Elf

structure Process where
  processId : ℕ
  entry : ℕ
  stackPointer : ℕ
  heapStart : ℕ

structure Scheduler where
  nextId : ℕ
  processes : List Process

def stackPage : ℕ := 0x100000

section Submit

variable (k : FrameAlloc α)

def mapFrame (v : ℕ) (s : State α) : Option (State α) := do
  let (frame, s) ← s.kallocFrame k
  mapPage k s v frame 0x1F

/-- The inner loop, in which the address of the page does not change. -/
def mapPages (v : ℕ) : ℕ → State α → Option (State α)
  | 0, s => some s
  | n + 1, s => do
    let s ← mapFrame k v s
    mapPages v n s

def loadSegment (contents header dataEnd : ℕ) (s : State α) : Option (ℕ × State α) := do
  let type ← pType s header
  if type ≠ 1 then some (dataEnd, s) else
  let memsz ← pMemsz s header
  let vaddr ← pVaddr s header
  let start := vaddr - vaddr % pageSize
  let s ← mapPages k start (memsz / pageSize + 1) s
  let offset ← pOffset s header
  let filesz ← pFilesz s header
  let s ← memcpy s (start + vaddr % pageSize) ((contents + offset) % 2 ^ 64) filesz
  let vaddr ← pVaddr s header
  let memsz ← pMemsz s header
  let segmentEnd := (vaddr + memsz) % 2 ^ 64
  some (if dataEnd < segmentEnd then segmentEnd else dataEnd, s)

def loadSegments (contents headers : ℕ) : (n i dataEnd : ℕ) → State α → Option (ℕ × State α)
  | 0, _, dataEnd, s => some (dataEnd, s)
  | n + 1, i, dataEnd, s => do
    let (dataEnd, s) ← loadSegment k contents ((headers + sizeofPhdr * i) % 2 ^ 64) dataEnd s
    loadSegments contents headers n (i + 1) dataEnd s

/-- The blocks of a new `Process`, of its `Path` with the text `/home/user/`, and of its place in the list.
What is stored there is kept in the record of the scheduler. -/
def allocProcess (fuel : ℕ) (s : State α) : Option (State α) := do
  let (_, s) ← kalloc k fuel s 48
  let (_, s) ← kalloc k fuel s 8
  let (_, s) ← kalloc k fuel s 11
  let (_, s) ← kalloc k fuel s 24
  some s

def submitNewProcess (fs : FileSystem α) (fuel : ℕ) (scheduler : Scheduler) (s : State α) :
    Option (Scheduler × State α) := do
  let (_, s) ← s.kallocFrame k
  let (fileSize, s) ← fs.getFileSize s
  let (contents, s) ← kalloc k fuel s fileSize
  let (_, s) ← fs.readFile s fileSize contents
  let programHeadersOffset ← ePhoff s contents
  let programHeadersAmount ← ePhnum s contents
  let (dataEnd, s) ← loadSegments k contents ((contents + programHeadersOffset) % 2 ^ 64) programHeadersAmount 0 0 s
  let dataEnd := (dataEnd + pageSize - dataEnd % pageSize) % 2 ^ 64
  let s ← mapFrame k dataEnd s
  let s ← mapFrame k stackPage s
  let entry ← eEntry s contents
  let s ← allocProcess k fuel s
  let process := ⟨scheduler.nextId, entry, stackPage + 4000, dataEnd⟩
  some (⟨scheduler.nextId + 1, scheduler.processes ++ [process]⟩, s)

end Submit

end TetraOS.Processes
