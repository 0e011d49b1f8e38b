import TetraOS.Library.ByteMemory

/-! Addresses, pages and frames (kernel/memory.h, kernel/memory/memory.cpp, kernel/linker.ld) and the
state of the memory code. Addresses are numbers below `2 ^ 64`; the direct map shows physical address
`p` at virtual address `virtualOffset + p`. -/

namespace TetraOS.Memory

open Library.ByteMemory

abbrev virtualOffset : ℕ := 0xFFFF800000000000
abbrev pageSize : ℕ := 4096
abbrev frameSize : ℕ := 4096
abbrev framesForManaging : ℕ := 8

/-- The symbols of the linker script: where the kernel image ends in physical memory, and where
the memory ends. -/
structure Image where
  physicalHeapStart : ℕ
  physicalMemoryEnd : ℕ

namespace Image

variable (img : Image)

def bssEnd : ℕ := img.physicalHeapStart + virtualOffset
def physicalHeapSize : ℤ := (img.physicalMemoryEnd : ℤ) - img.physicalHeapStart
def virtualHeapStart : ℕ := img.physicalMemoryEnd + virtualOffset

end Image

structure State (α : Type) where
  mem : Memory
  frames : α
  satp : ℕ
  firstLevelTable : ℕ
  freeList : ℕ
  virtualAllocEnd : ℕ

-- Subtracting `virtualOffset` is adding `2 ^ 47` in 64-bit arithmetic.
def physical (address : ℕ) : ℕ := (address + 2 ^ 47) % 2 ^ 64

lemma physical_eq (address : ℕ) : physical address = (address + 2 ^ 47) % 2 ^ 64 := rfl

attribute [irreducible] physical

lemma physical_direct {p x : ℕ} (h : p + x < 2 ^ 64) :
    physical ((p + virtualOffset) % 2 ^ 64 + x) = p + x := by
  rw [physical_eq]
  simp only [virtualOffset]
  omega

namespace PhysicalFrame

def getPpn (frame : ℕ) : ℕ := frame >>> 12

lemma getPpn_eq (frame : ℕ) : getPpn frame = frame / 4096 := Nat.shiftRight_eq_div_pow frame 12

end PhysicalFrame

namespace VirtualPage

lemma and_511_lt (n : ℕ) : n &&& 511 < 512 := Nat.lt_succ_of_le Nat.and_le_right

def getVpn3 (page : ℕ) : Fin 512 := ⟨page >>> 39 &&& 511, and_511_lt _⟩
def getVpn2 (page : ℕ) : Fin 512 := ⟨page >>> 30 &&& 511, and_511_lt _⟩
def getVpn1 (page : ℕ) : Fin 512 := ⟨page >>> 21 &&& 511, and_511_lt _⟩
def getVpn0 (page : ℕ) : Fin 512 := ⟨page >>> 12 &&& 511, and_511_lt _⟩
def getOffset (page : ℕ) : ℕ := page &&& 0xFFF

lemma shift_and_511 (page k : ℕ) : page >>> k &&& 511 = page / 2 ^ k % 512 := by
  rw [Nat.shiftRight_eq_div_pow]
  exact Nat.and_two_pow_sub_one_eq_mod _ 9

lemma getVpn3_val (page : ℕ) : (getVpn3 page).val = page / 2 ^ 39 % 512 := shift_and_511 page 39
lemma getVpn2_val (page : ℕ) : (getVpn2 page).val = page / 2 ^ 30 % 512 := shift_and_511 page 30
lemma getVpn1_val (page : ℕ) : (getVpn1 page).val = page / 2 ^ 21 % 512 := shift_and_511 page 21
lemma getVpn0_val (page : ℕ) : (getVpn0 page).val = page / 2 ^ 12 % 512 := shift_and_511 page 12

lemma getOffset_eq (page : ℕ) : getOffset page = page % 4096 := Nat.and_two_pow_sub_one_eq_mod page 12

def path (page : ℕ) : List (Fin 512) := [getVpn3 page, getVpn2 page, getVpn1 page, getVpn0 page]

def pageOf (va : ℕ) : ℕ := va / 4096 % 2 ^ 36

lemma path_eq_iff {a b : ℕ} : path a = path b ↔ pageOf a = pageOf b := by
  simp only [pageOf, path, List.cons.injEq, and_true, Fin.ext_iff, getVpn3_val, getVpn2_val, getVpn1_val, getVpn0_val]
  omega

end VirtualPage

end TetraOS.Memory
