import TetraOS.Library.Riscv
import TetraOS.Memory.AddressSpace

/-! The mappings that `_start` makes before the kernel runs at virtual addresses (kernel/boot.s). `la` is relative
to the program counter, so it gives physical addresses there. -/

namespace TetraOS.Memory

open Library.ByteMemory Library.TableTree Library.Riscv VirtualPage

abbrev kernelStart : ℕ := 0x80000000
abbrev uart : ℕ := 0x10000000
abbrev extraPages : ℕ := 280

/-- The kernel in the memory of the linker script. The seven tables of boot.s follow one another in `.bss`, from
`tables` on, and the image ends where the physical heap starts. -/
structure BootImage extends Image where
  tables : ℕ
  kernelStart_le : kernelStart ≤ tables
  tables_le : tables + 7 * 4096 ≤ physicalHeapStart
  fits : physicalHeapStart ≤ physicalMemoryEnd
  memoryEnd : physicalMemoryEnd = 2 ^ 32

namespace BootImage

variable (img : BootImage)

def kernelEnd : ℕ := img.physicalHeapStart

def table (number : ℕ) : Word := BitVec.ofNat 64 (img.tables + 4096 * number)

def bootPageDirectory : Word := img.table 0
def bootFirstLevelTable : Word := img.table 1
def bootSecondLevelTable : Word := img.table 2
def bootThirdLevelTable : Word := img.table 3
def bootUartSecondLevelTable : Word := img.table 5
def bootUartThirdLevelTable : Word := img.table 6

end BootImage

section Code

def loadVirtualOffset (rd : Reg) : List Instr := [.lui rd 0x80000, .slli rd rd 16]

def splitAddress : List Instr :=
  [.srli (.a 1) (.a 0) 20, .srli (.a 1) (.a 1) 19, .andi (.a 1) (.a 1) 511,
    .srli (.a 2) (.a 0) 20, .srli (.a 2) (.a 2) 10, .andi (.a 2) (.a 2) 511,
    .srli (.a 3) (.a 0) 21, .andi (.a 3) (.a 3) 511,
    .srli (.a 4) (.a 0) 12, .andi (.a 4) (.a 4) 511]

-- `table[index]` is set to the frame that `source` puts into `s2`.
def setBootEntry (table : Word) (index : Reg) (source : Instr) (flags : ℤ) : List Instr :=
  [.la (.a 5) table, .addi (.s 1) .zero 8, .mul (.s 1) (.s 1) index, .add (.s 1) (.s 1) (.a 5), source,
    .srli (.s 2) (.s 2) 2, .addi (.s 3) .zero flags, .or (.s 2) (.s 2) (.s 3), .sd (.s 2) 0 (.s 1)]

variable (img : BootImage)

def bootMapAddress : List Instr := List.flatten [splitAddress,
  setBootEntry img.bootPageDirectory (.a 1) (.la (.s 2) img.bootFirstLevelTable) 0x1,
  setBootEntry img.bootFirstLevelTable (.a 2) (.la (.s 2) img.bootSecondLevelTable) 0x1,
  setBootEntry img.bootSecondLevelTable (.a 3) (.la (.s 2) img.bootThirdLevelTable) 0x1,
  setBootEntry img.bootThirdLevelTable (.a 4) (.add (.s 2) .zero (.s 7)) 0xF]

def bootUartMapAddress : List Instr := List.flatten [
  loadVirtualOffset (.a 0),
  [.la (.a 1) (BitVec.ofNat 64 uart), .add (.a 0) (.a 1) (.a 0), .la (.s 7) (BitVec.ofNat 64 uart)],
  splitAddress,
  setBootEntry img.bootFirstLevelTable (.a 2) (.la (.s 2) img.bootUartSecondLevelTable) 0x1,
  setBootEntry img.bootUartSecondLevelTable (.a 3) (.la (.s 2) img.bootUartThirdLevelTable) 0x1,
  setBootEntry img.bootUartThirdLevelTable (.a 4) (.add (.s 2) .zero (.s 7)) 0xF]

def kernelAddresses : List Instr := List.flatten [
  loadVirtualOffset (.s 10),
  [.la (.s 9) (BitVec.ofNat 64 img.kernelEnd), .addi (.a 2) .zero extraPages, .slli (.a 2) (.a 2) 12,
    .add (.s 9) (.a 2) (.s 9), .add (.s 9) (.s 10) (.s 9)],
  loadVirtualOffset (.a 0),
  [.la (.a 2) (BitVec.ofNat 64 kernelStart), .add (.a 0) (.a 0) (.a 2), .add (.s 7) (.a 2) .zero,
    .add (.s 8) (.a 0) .zero]]

def nextAddress : List Instr :=
  [.addi (.s 11) .zero 0x1, .slli (.s 11) (.s 11) 12, .add (.s 7) (.s 7) (.s 11), .add (.s 8) (.s 8) (.s 11)]

-- `fuel` bounds the turns of the loop, which ends at the signed `bge s8, s9`.
def mapNextAddress : ℕ → Cpu → Option Cpu
  | 0, _ => none
  | fuel + 1, c =>
    let c := exec nextAddress c
    if (c.get (.s 9)).sle (c.get (.s 8)) then some c else
    mapNextAddress fuel (exec (.add (.a 0) (.s 8) .zero :: bootMapAddress img) c)

def setHandlers (machineHandler supervisorHandler : Word) : List Instr := List.flatten [
  [.la (.a 3) machineHandler, .csrw .mtvec (.a 3), .addi (.a 2) .zero 0],
  loadVirtualOffset (.a 2),
  [.la (.a 3) supervisorHandler, .add (.a 2) (.a 2) (.a 3), .csrw .stvec (.a 2)]]

def setSatp : List Instr :=
  [.la (.a 5) img.bootPageDirectory, .addi (.a 6) .zero 9, .slli (.a 6) (.a 6) 20, .slli (.a 6) (.a 6) 20,
    .slli (.a 6) (.a 6) 20, .srli (.a 5) (.a 5) 12, .or (.a 5) (.a 5) (.a 6), .csrw .satp (.a 5)]

-- `jump_to_c` up to its write of `satp`.
def jumpToC (machineHandler supervisorHandler : Word) : List Instr := List.flatten [
  setHandlers machineHandler supervisorHandler, bootUartMapAddress img, setSatp img]

/-- `_start` of the first hart from the mapping of the kernel to the write of `satp`. -/
def start (machineHandler supervisorHandler : Word) (fuel : ℕ) (c : Cpu) : Option Cpu :=
  (mapNextAddress img fuel (exec (kernelAddresses img ++ bootMapAddress img) c)).map
    (exec (jumpToC img machineHandler supervisorHandler))

end Code

/-! What the code does to memory, with numbers for addresses. -/

namespace BootImage

variable (img : BootImage)

def setEntry (m : Memory) (number : ℕ) (index : Fin 512) (address flags : ℕ) : Memory :=
  store m 8 (img.tables + 4096 * number + 8 * index) (address / 4 ||| flags)

def mapAddress (m : Memory) (va p : ℕ) : Memory :=
  let m := img.setEntry m 0 (getVpn3 va) (img.tables + 4096 * 1) 1
  let m := img.setEntry m 1 (getVpn2 va) (img.tables + 4096 * 2) 1
  let m := img.setEntry m 2 (getVpn1 va) (img.tables + 4096 * 3) 1
  img.setEntry m 3 (getVpn0 va) p 15

def mapUart (m : Memory) : Memory :=
  let m := img.setEntry m 1 (getVpn2 (virtualOffset + uart)) (img.tables + 4096 * 5) 1
  let m := img.setEntry m 5 (getVpn1 (virtualOffset + uart)) (img.tables + 4096 * 6) 1
  img.setEntry m 6 (getVpn0 (virtualOffset + uart)) uart 15

def pages : ℕ := (img.kernelEnd + 4096 * extraPages - kernelStart + 4095) / 4096

def mapPages (m : Memory) : ℕ → Memory
  | 0 => m
  | k + 1 => img.mapAddress (mapPages m k) (virtualOffset + (kernelStart + 4096 * k)) (kernelStart + 4096 * k)

end BootImage

section Registers

variable {c : Cpu}

structure EntrySet (c c' : Cpu) (address value : Word) : Prop where
  mem : c'.mem = store c.mem 8 address.toNat value.toNat
  csrs : c'.csrs = c.csrs
  regs : ∀ r, r ≠ .a 5 → r ≠ .s 1 → r ≠ .s 2 → r ≠ .s 3 → c'.get r = c.get r

/-- The frame may come from `s7`, which the entry is set without. -/
lemma entrySet_of_source {source : Instr} {frame : Word}
    (hsource : ∀ c', c'.get (.s 7) = c.get (.s 7) → step c' source = c'.set (.s 2) frame) (table : Word) (i : Fin 8)
    (flags : ℤ) (hi : i ≠ 5) :
    EntrySet c (exec (setBootEntry table (.a i) source flags) c) (8 * c.get (.a i) + table)
      (frame >>> 2 ||| BitVec.ofInt 64 flags) := by
  have hstep := hsource (exec [.la (.a 5) table, .addi (.s 1) .zero 8, .mul (.s 1) (.s 1) (.a i),
    .add (.s 1) (.s 1) (.a 5)] c) (by simp [step, get_set])
  simp only [exec_cons, exec_nil] at hstep
  constructor
  · simp only [setBootEntry, exec_cons, exec_nil, hstep]
    simp [step, get_set, Cpu.address, hi]
  · simp only [setBootEntry, exec_cons, exec_nil, hstep]
    simp [step]
  · intro r h₁ h₂ h₃ h₄
    simp only [setBootEntry, exec_cons, exec_nil, get_sd, hstep]
    simp only [step, get_set_ne, h₁, h₂, h₃, h₄, ne_eq, not_false_eq_true]

lemma setBootEntry_spec (table source : Word) (i : Fin 8) (flags : ℤ) (hi : i ≠ 5) :
    EntrySet c (exec (setBootEntry table (.a i) (.la (.s 2) source) flags) c) (8 * c.get (.a i) + table)
      (source >>> 2 ||| BitVec.ofInt 64 flags) :=
  entrySet_of_source (fun _ _ => rfl) table i flags hi

lemma setBootLeaf_spec (table : Word) (i : Fin 8) (flags : ℤ) (hi : i ≠ 5) :
    EntrySet c (exec (setBootEntry table (.a i) (.add (.s 2) .zero (.s 7)) flags) c) (8 * c.get (.a i) + table)
      (c.get (.s 7) >>> 2 ||| BitVec.ofInt 64 flags) :=
  entrySet_of_source (fun c' hc' => by simp [step, hc']) table i flags hi

lemma vpn_word {va : ℕ} (hva : va < 2 ^ 64) (k : ℕ) :
    BitVec.ofNat 64 va >>> k &&& 511#64 = BitVec.ofNat 64 (va >>> k &&& 511) := by
  have hlt := and_511_lt (va >>> k)
  apply BitVec.eq_of_toNat_eq
  rw [BitVec.toNat_and, BitVec.toNat_ushiftRight, BitVec.toNat_ofNat, BitVec.toNat_ofNat, BitVec.toNat_ofNat,
    Nat.mod_eq_of_lt hva, Nat.mod_eq_of_lt (by omega : va >>> k &&& 511 < 2 ^ 64)]

structure Split (c c' : Cpu) (va : ℕ) : Prop where
  mem : c'.mem = c.mem
  csrs : c'.csrs = c.csrs
  vpn3 : c'.get (.a 1) = BitVec.ofNat 64 (getVpn3 va)
  vpn2 : c'.get (.a 2) = BitVec.ofNat 64 (getVpn2 va)
  vpn1 : c'.get (.a 3) = BitVec.ofNat 64 (getVpn1 va)
  vpn0 : c'.get (.a 4) = BitVec.ofNat 64 (getVpn0 va)
  saved : ∀ i, c'.get (.s i) = c.get (.s i)

lemma splitAddress_spec {va : ℕ} (hva : va < 2 ^ 64) (ha : c.get (.a 0) = BitVec.ofNat 64 va) :
    Split c (exec splitAddress c) va := by
  refine ⟨rfl, rfl, ?_, ?_, ?_, ?_, fun i => ?_⟩
  · refine Eq.trans ?_ (vpn_word hva 39)
    simp [splitAddress, step, get_set, ha]
  · refine Eq.trans ?_ (vpn_word hva 30)
    simp [splitAddress, step, get_set, ha]
  · refine Eq.trans ?_ (vpn_word hva 21)
    simp [splitAddress, step, get_set, ha]
  · refine Eq.trans ?_ (vpn_word hva 12)
    simp [splitAddress, step, get_set, ha]
  · simp [splitAddress, step, get_set]

variable {img : BootImage}

lemma EntrySet.setEntry {c' : Cpu} {n a : ℕ} {i : Fin 512} {flags : Word}
    (h : EntrySet c c' (8 * BitVec.ofNat 64 i + img.table n) (BitVec.ofNat 64 a >>> 2 ||| flags))
    (hn : n < 7) (ha : a < 2 ^ 64) : c'.mem = img.setEntry c.mem n i a flags.toNat := by
  have htables := img.tables_le.trans (img.fits.trans_eq img.memoryEnd)
  have haddress : (8 * BitVec.ofNat 64 i + img.table n).toNat = img.tables + 4096 * n + 8 * i := by
    have hi := i.isLt
    rw [BootImage.table, BitVec.toNat_add, BitVec.toNat_mul, BitVec.toNat_ofNat, BitVec.toNat_ofNat]
    change (8 * (i.val % 2 ^ 64) % 2 ^ 64 + (img.tables + 4096 * n) % 2 ^ 64) % 2 ^ 64 = _
    omega
  have hvalue : (BitVec.ofNat 64 a >>> 2 ||| flags).toNat = a / 4 ||| flags.toNat := by
    rw [BitVec.toNat_or, BitVec.toNat_ushiftRight, BitVec.toNat_ofNat, Nat.mod_eq_of_lt ha,
      Nat.shiftRight_eq_div_pow]
  rw [h.mem, haddress, hvalue, BootImage.setEntry]

structure AddressMapped (c c' : Cpu) (m : Memory) : Prop where
  mem : c'.mem = m
  csrs : c'.csrs = c.csrs
  saved : ∀ i : Fin 12, 3 < i → c'.get (.s i) = c.get (.s i)

lemma EntrySet.get_a {c' : Cpu} {address value : Word} (h : EntrySet c c' address value) {i : Fin 8} (hi : i ≠ 5) :
    c'.get (.a i) = c.get (.a i) := h.regs _ (by simpa using hi) (by simp) (by simp) (by simp)

lemma EntrySet.get_s {c' : Cpu} {address value : Word} (h : EntrySet c c' address value) {i : Fin 12} (hi : 3 < i) :
    c'.get (.s i) = c.get (.s i) := by
  refine h.regs _ (by simp) ?_ ?_ ?_ <;> rintro ⟨⟩ <;> exact absurd hi (by decide)

lemma table_lt (number : ℕ) (hn : number < 7) : img.tables + 4096 * number < 2 ^ 64 := by
  have htables := img.tables_le.trans (img.fits.trans_eq img.memoryEnd)
  omega

variable (img) in
lemma bootMapAddress_spec {va p : ℕ} (hva : va < 2 ^ 64) (hp : p < 2 ^ 64)
    (ha : c.get (.a 0) = BitVec.ofNat 64 va) (hs : c.get (.s 7) = BitVec.ofNat 64 p) :
    AddressMapped c (exec (bootMapAddress img) c) (img.mapAddress c.mem va p) := by
  simp only [bootMapAddress, List.flatten_cons, List.flatten_nil, List.append_nil, exec_append]
  have h₀ := splitAddress_spec hva ha
  generalize exec splitAddress c = c₀ at h₀ ⊢
  have h₁ := setBootEntry_spec (c := c₀) img.bootPageDirectory img.bootFirstLevelTable 1 0x1 (by decide)
  generalize exec (setBootEntry _ _ _ _) c₀ = c₁ at h₁ ⊢
  have h₂ := setBootEntry_spec (c := c₁) img.bootFirstLevelTable img.bootSecondLevelTable 2 0x1 (by decide)
  generalize exec (setBootEntry _ _ _ _) c₁ = c₂ at h₂ ⊢
  have h₃ := setBootEntry_spec (c := c₂) img.bootSecondLevelTable img.bootThirdLevelTable 3 0x1 (by decide)
  generalize exec (setBootEntry _ _ _ _) c₂ = c₃ at h₃ ⊢
  have h₄ := setBootLeaf_spec (c := c₃) img.bootThirdLevelTable 4 0xF (by decide)
  generalize exec (setBootEntry _ _ _ _) c₃ = c₄ at h₄ ⊢
  have ha₂ : c₁.get (.a 2) = BitVec.ofNat 64 (getVpn2 va) := (h₁.get_a (by decide)).trans h₀.vpn2
  have ha₃ : c₂.get (.a 3) = BitVec.ofNat 64 (getVpn1 va) := by
    rw [h₂.get_a (by decide), h₁.get_a (by decide), h₀.vpn1]
  have ha₄ : c₃.get (.a 4) = BitVec.ofNat 64 (getVpn0 va) := by
    rw [h₃.get_a (by decide), h₂.get_a (by decide), h₁.get_a (by decide), h₀.vpn0]
  have hs₃ : c₃.get (.s 7) = BitVec.ofNat 64 p := by
    rw [h₃.get_s (by decide), h₂.get_s (by decide), h₁.get_s (by decide), h₀.saved, hs]
  rw [hs₃] at h₄
  have hm₁ := (h₀.vpn3 ▸ h₁).setEntry (n := 0) (by decide) (table_lt 1 (by decide))
  have hm₂ := (ha₂ ▸ h₂).setEntry (n := 1) (by decide) (table_lt 2 (by decide))
  have hm₃ := (ha₃ ▸ h₃).setEntry (n := 2) (by decide) (table_lt 3 (by decide))
  have hm₄ := (ha₄ ▸ h₄).setEntry (n := 3) (by decide) hp
  refine ⟨?_, ?_, fun i hi => ?_⟩
  · rw [hm₄, hm₃, hm₂, hm₁, h₀.mem]
    rfl
  · rw [h₄.csrs, h₃.csrs, h₂.csrs, h₁.csrs, h₀.csrs]
  · rw [h₄.get_s hi, h₃.get_s hi, h₂.get_s hi, h₁.get_s hi, h₀.saved]

-- The constants are large, so the kernel is spared from comparing more than one pair of them at a time.
lemma exec_lui_slli (rd : Reg) (hr : rd ≠ .zero) (imm shift : ℕ) : exec [.lui rd imm, .slli rd rd shift] c =
    (c.set rd ((BitVec.ofNat 32 (imm * 4096)).signExtend 64)).set rd
      ((BitVec.ofNat 32 (imm * 4096)).signExtend 64 <<< shift) := by
  rw [exec_cons, exec_cons, exec_nil, step, step, get_set_self hr]

def highHalf : Word := (BitVec.ofNat 32 (0x80000 * 4096)).signExtend 64

lemma highHalf_shift : highHalf <<< 16 = BitVec.ofNat 64 virtualOffset := by decide

lemma loadVirtualOffset_eq (rd : Reg) (hr : rd ≠ .zero) :
    exec (loadVirtualOffset rd) c = (c.set rd highHalf).set rd (highHalf <<< 16) := exec_lui_slli rd hr 0x80000 16

lemma loadVirtualOffset_spec (rd : Reg) (hr : rd ≠ .zero) :
    exec (loadVirtualOffset rd) c = (c.set rd highHalf).set rd (BitVec.ofNat 64 virtualOffset) :=
  (loadVirtualOffset_eq rd hr).trans (congrArg _ highHalf_shift)

lemma exec_uartAddress (u v offset : Word) (c' : Cpu) (hc : c' = exec [.la (.a 1) u, .add (.a 0) (.a 1) (.a 0),
      .la (.s 7) u] ((c.set (.a 0) v).set (.a 0) offset)) :
    c'.mem = c.mem ∧ c'.get (.a 0) = u + offset ∧ c'.get (.s 7) = u := by
  subst hc
  refine ⟨rfl, ?_, ?_⟩ <;> simp [step, get_set]

lemma uart_word : BitVec.ofNat 64 uart + BitVec.ofNat 64 virtualOffset = BitVec.ofNat 64 (virtualOffset + uart) := by
  decide

lemma uartAddress_spec {c' : Cpu} (hc : c' = exec [.la (.a 1) (BitVec.ofNat 64 uart), .add (.a 0) (.a 1) (.a 0),
      .la (.s 7) (BitVec.ofNat 64 uart)] (exec (loadVirtualOffset (.a 0)) c)) :
    c'.mem = c.mem ∧ c'.get (.a 0) = BitVec.ofNat 64 (virtualOffset + uart) ∧
      c'.get (.s 7) = BitVec.ofNat 64 uart := by
  rw [loadVirtualOffset_spec (.a 0) (by simp)] at hc
  obtain ⟨hm, ha, hs⟩ := exec_uartAddress _ _ _ c' hc
  exact ⟨hm, ha.trans uart_word, hs⟩

variable (img) in
lemma bootUartMapAddress_mem : (exec (bootUartMapAddress img) c).mem = img.mapUart c.mem := by
  simp only [bootUartMapAddress, List.flatten_cons, List.flatten_nil, List.append_nil, exec_append]
  generalize hc : exec [.la (.a 1) _, .add (.a 0) (.a 1) (.a 0), .la (.s 7) _] _ = c'
  obtain ⟨hm, ha, hs⟩ := uartAddress_spec hc.symm
  have h₀ := splitAddress_spec (by norm_num) ha
  generalize exec splitAddress c' = c₀ at h₀ ⊢
  have h₁ := setBootEntry_spec (c := c₀) img.bootFirstLevelTable img.bootUartSecondLevelTable 2 0x1 (by decide)
  generalize exec (setBootEntry _ _ _ _) c₀ = c₁ at h₁ ⊢
  have h₂ := setBootEntry_spec (c := c₁) img.bootUartSecondLevelTable img.bootUartThirdLevelTable 3 0x1 (by decide)
  generalize exec (setBootEntry _ _ _ _) c₁ = c₂ at h₂ ⊢
  have h₃ := setBootLeaf_spec (c := c₂) img.bootUartThirdLevelTable 4 0xF (by decide)
  generalize exec (setBootEntry _ _ _ _) c₂ = c₃ at h₃ ⊢
  have ha₂ : c₁.get (.a 3) = BitVec.ofNat 64 (getVpn1 (virtualOffset + uart)) :=
    (h₁.get_a (by decide)).trans h₀.vpn1
  have ha₃ : c₂.get (.a 4) = BitVec.ofNat 64 (getVpn0 (virtualOffset + uart)) := by
    rw [h₂.get_a (by decide), h₁.get_a (by decide), h₀.vpn0]
  have hs₂ : c₂.get (.s 7) = BitVec.ofNat 64 uart := by
    rw [h₂.get_s (by decide), h₁.get_s (by decide), h₀.saved, hs]
  rw [hs₂] at h₃
  have hm₁ := (h₀.vpn2 ▸ h₁).setEntry (n := 1) (by decide) (table_lt 5 (by decide))
  have hm₂ := (ha₂ ▸ h₂).setEntry (n := 5) (by decide) (table_lt 6 (by decide))
  have hm₃ := (ha₃ ▸ h₃).setEntry (n := 6) (by decide) (by norm_num)
  have hone : (BitVec.ofInt 64 0x1).toNat = 1 := rfl
  have hleaf : (BitVec.ofInt 64 0xF).toNat = 15 := rfl
  rw [hm₃, hm₂, hm₁, h₀.mem, hm, hone, hleaf, BootImage.mapUart]

lemma exec_setSatp (imm : ℤ) (directory : Word) (c' : Cpu) (hc : c' = exec [.la (.a 5) directory,
      .addi (.a 6) .zero imm, .slli (.a 6) (.a 6) 20, .slli (.a 6) (.a 6) 20, .slli (.a 6) (.a 6) 20,
      .srli (.a 5) (.a 5) 12, .or (.a 5) (.a 5) (.a 6), .csrw .satp (.a 5)] c) :
    c'.mem = c.mem ∧ c'.csrs .satp = directory >>> 12 ||| BitVec.ofInt 64 imm <<< 20 <<< 20 <<< 20 := by
  subst hc
  exact ⟨rfl, by simp [step, get_set]⟩

variable (img) in
lemma jumpToC_spec (machineHandler supervisorHandler : Word) :
    (exec (jumpToC img machineHandler supervisorHandler) c).mem = img.mapUart c.mem ∧
      (exec (jumpToC img machineHandler supervisorHandler) c).csrs .satp =
        img.bootPageDirectory >>> 12 ||| BitVec.ofInt 64 9 <<< 20 <<< 20 <<< 20 := by
  have hm : (exec (setHandlers machineHandler supervisorHandler) c).mem = c.mem := rfl
  simp only [jumpToC, List.flatten_cons, List.flatten_nil, List.append_nil, exec_append]
  generalize exec (setHandlers machineHandler supervisorHandler) c = c' at hm ⊢
  obtain ⟨hm', hs⟩ := exec_setSatp 9 img.bootPageDirectory _
    (rfl : exec (setSatp img) (exec (bootUartMapAddress img) c') = _)
  exact ⟨by rw [hm', bootUartMapAddress_mem img, hm], hs⟩

lemma exec_kernelAddresses (kernelEnd start v offset : Word) (pages : ℤ) (c' : Cpu)
    (hc : c' = exec [.la (.a 2) start, .add (.a 0) (.a 0) (.a 2), .add (.s 7) (.a 2) .zero, .add (.s 8) (.a 0) .zero]
      (((exec [.la (.s 9) kernelEnd, .addi (.a 2) .zero pages, .slli (.a 2) (.a 2) 12, .add (.s 9) (.a 2) (.s 9),
        .add (.s 9) (.s 10) (.s 9)] ((c.set (.s 10) v).set (.s 10) offset)).set (.a 0) v).set (.a 0) offset)) :
    c'.mem = c.mem ∧ c'.get (.a 0) = offset + start ∧ c'.get (.s 7) = start ∧ c'.get (.s 8) = offset + start ∧
      c'.get (.s 9) = offset + (BitVec.ofInt 64 pages <<< 12 + kernelEnd) := by
  subst hc
  refine ⟨rfl, ?_, ?_, ?_, ?_⟩ <;> simp [step, get_set]

/-- The loop has mapped page `k` and will look at the next one. -/
structure AtPage (img : BootImage) (c : Cpu) (k : ℕ) : Prop where
  s7 : c.get (.s 7) = BitVec.ofNat 64 (kernelStart + 4096 * k)
  s8 : c.get (.s 8) = BitVec.ofNat 64 (virtualOffset + (kernelStart + 4096 * k))
  s9 : c.get (.s 9) = BitVec.ofNat 64 (virtualOffset + (img.kernelEnd + 4096 * extraPages))

lemma extraPages_word : BitVec.ofInt 64 extraPages <<< 12 = BitVec.ofNat 64 (4096 * extraPages) := by decide

lemma mapped_word (a b offset : ℕ) : BitVec.ofNat 64 offset + (BitVec.ofNat 64 b + BitVec.ofNat 64 a) =
    BitVec.ofNat 64 (offset + (a + b)) := by
  rw [BitVec.ofNat_add, BitVec.ofNat_add, BitVec.add_comm (BitVec.ofNat 64 a)]

variable (img) in
lemma kernelAddresses_spec : ∃ c', exec (kernelAddresses img) c = c' ∧ c'.mem = c.mem ∧
    c'.get (.a 0) = BitVec.ofNat 64 (virtualOffset + kernelStart) ∧ AtPage img c' 0 := by
  refine ⟨_, rfl, ?_⟩
  simp only [kernelAddresses, List.flatten_cons, List.flatten_nil, List.append_nil, exec_append]
  rw [loadVirtualOffset_spec (.a 0) (by simp), loadVirtualOffset_spec (.s 10) (by simp)]
  generalize hc : exec [.la (.a 2) _, .add (.a 0) (.a 0) (.a 2), .add (.s 7) (.a 2) .zero,
    .add (.s 8) (.a 0) .zero] _ = c'
  obtain ⟨hm, ha, h₇, h₈, h₉⟩ := exec_kernelAddresses _ _ _ _ _ c' hc.symm
  have hstart : BitVec.ofNat 64 virtualOffset + BitVec.ofNat 64 kernelStart =
    BitVec.ofNat 64 (virtualOffset + kernelStart) := (BitVec.ofNat_add virtualOffset kernelStart).symm
  have hend := (congrArg (fun w => BitVec.ofNat 64 virtualOffset + (w + BitVec.ofNat 64 img.kernelEnd))
    extraPages_word).trans (mapped_word img.kernelEnd _ _)
  exact ⟨hm, ha.trans hstart, h₇, h₈.trans hstart, h₉.trans hend⟩

variable (img) in
lemma kernelEnd_le : img.kernelEnd ≤ 2 ^ 32 := img.fits.trans_eq img.memoryEnd

variable (img) in
lemma kernelStart_lt : kernelStart < img.kernelEnd := by
  have htables := img.kernelStart_le.trans_lt (Nat.lt_add_of_pos_right (by decide : 0 < 7 * 4096))
  exact htables.trans_le img.tables_le

lemma page_word : BitVec.ofInt 64 0x1 <<< 12 = 4096#64 := by decide

lemma exec_nextAddress (imm : ℤ) (c' : Cpu) (hc : c' = exec [.addi (.s 11) .zero imm, .slli (.s 11) (.s 11) 12,
    .add (.s 7) (.s 7) (.s 11), .add (.s 8) (.s 8) (.s 11)] c) :
    c'.mem = c.mem ∧ c'.get (.s 7) = c.get (.s 7) + BitVec.ofInt 64 imm <<< 12 ∧
      c'.get (.s 8) = c.get (.s 8) + BitVec.ofInt 64 imm <<< 12 ∧ c'.get (.s 9) = c.get (.s 9) := by
  subst hc
  exact ⟨rfl, by simp [step, get_set], by simp [step, get_set], by simp [step, get_set]⟩

lemma AtPage.nextAddress {k : ℕ} (h : AtPage img c k) :
    AtPage img (exec nextAddress c) (k + 1) ∧ (exec nextAddress c).mem = c.mem := by
  have hnext : ∀ a : ℕ, BitVec.ofNat 64 (a + 4096 * k) + 4096#64 = BitVec.ofNat 64 (a + 4096 * (k + 1)) := by
    intro a
    rw [Nat.mul_succ, ← Nat.add_assoc, BitVec.ofNat_add (a + 4096 * k)]
  obtain ⟨hm, h₇, h₈, h₉⟩ := exec_nextAddress 0x1 (exec Memory.nextAddress c) rfl
  rw [page_word] at h₇ h₈
  refine ⟨⟨?_, ?_, h₉.trans h.s9⟩, hm⟩
  · rw [h₇, h.s7, hnext]
  · rw [h₈, h.s8, ← Nat.add_assoc, hnext, Nat.add_assoc]

variable (img) in
lemma pages_le_iff {k : ℕ} : img.pages ≤ k ↔ img.kernelEnd + 4096 * extraPages ≤ kernelStart + 4096 * k := by
  rw [BootImage.pages, kernelStart, extraPages]
  omega

lemma AtPage.sle_iff {k : ℕ} (h : AtPage img c k) (hk : k ≤ img.pages) :
    (c.get (.s 9)).sle (c.get (.s 8)) = true ↔ img.pages ≤ k := by
  have hend := kernelEnd_le img
  have hint : ∀ a : ℕ, a < 2 ^ 47 → (BitVec.ofNat 64 (virtualOffset + a)).toInt = (a : ℤ) - 2 ^ 47 := by
    intro a ha
    rw [BitVec.toInt_eq_toNat_cond, BitVec.toNat_ofNat, Nat.mod_eq_of_lt (by simp only [virtualOffset]; omega),
      if_neg (by simp only [virtualOffset]; omega)]
    simp only [virtualOffset]
    omega
  have hk' : kernelStart + 4096 * k < 2 ^ 47 := by
    rw [BootImage.pages, kernelStart, extraPages] at hk
    rw [kernelStart]
    omega
  have hend' : img.kernelEnd + 4096 * extraPages < 2 ^ 47 := by
    rw [extraPages]
    omega
  rw [h.s8, h.s9, BitVec.sle_iff_toInt_le, hint _ hk', hint _ hend', pages_le_iff]
  omega

lemma AtPage.of_saved {c' : Cpu} {k : ℕ} {m : Memory} (h : AtPage img c k) (hs : AddressMapped c c' m) :
    AtPage img c' k :=
  ⟨(hs.saved 7 (by decide)).trans h.s7, (hs.saved 8 (by decide)).trans h.s8, (hs.saved 9 (by decide)).trans h.s9⟩

lemma AtPage.address_lt {k : ℕ} (hk : k < img.pages) : virtualOffset + (kernelStart + 4096 * k) < 2 ^ 64 := by
  have hend := kernelEnd_le img
  rw [BootImage.pages, kernelStart, extraPages] at hk
  rw [kernelStart, virtualOffset]
  omega

lemma AtPage.mapAddress {k : ℕ} (h : AtPage img c k) (hk : k < img.pages) :
    AtPage img (exec (.add (.a 0) (.s 8) .zero :: bootMapAddress img) c) k ∧
      (exec (.add (.a 0) (.s 8) .zero :: bootMapAddress img) c).mem =
        img.mapAddress c.mem (virtualOffset + (kernelStart + 4096 * k)) (kernelStart + 4096 * k) := by
  have hlt := AtPage.address_lt hk
  have hc : AtPage img (step c (.add (.a 0) (.s 8) .zero)) k :=
    ⟨(get_set_ne (by simp)).trans h.s7, (get_set_ne (by simp)).trans h.s8, (get_set_ne (by simp)).trans h.s9⟩
  have ha : (step c (.add (.a 0) (.s 8) .zero)).get (.a 0) =
      BitVec.ofNat 64 (virtualOffset + (kernelStart + 4096 * k)) := by
    rw [step, get_set_self (by simp), get_zero, h.s8]
    exact BitVec.add_zero _
  have hm : (step c (.add (.a 0) (.s 8) .zero)).mem = c.mem := rfl
  rw [exec_cons, ← hm]
  generalize step c (.add (.a 0) (.s 8) .zero) = c' at hc ha
  have hs := bootMapAddress_spec img hlt (Nat.lt_of_le_of_lt (Nat.le_add_left _ _) hlt) ha hc.s7
  exact ⟨hc.of_saved hs, hs.mem⟩

lemma mapNextAddress_spec {m : Memory} {k : ℕ} (fuel : ℕ) (h : AtPage img c k) (hk : k < img.pages)
    (hm : c.mem = img.mapPages m (k + 1)) :
    (∀ c', mapNextAddress img fuel c = some c' → c'.mem = img.mapPages m img.pages) ∧
      (img.pages ≤ k + fuel → ∃ c', mapNextAddress img fuel c = some c') := by
  induction fuel generalizing c k with
  | zero => exact ⟨fun c' hc => absurd hc (by simp [mapNextAddress]), fun hf => absurd hf (by omega)⟩
  | succ fuel ih =>
    obtain ⟨hnext, hmem⟩ := h.nextAddress
    rw [mapNextAddress]
    by_cases hlast : img.pages ≤ k + 1
    · rw [if_pos ((hnext.sle_iff hk).mpr hlast)]
      refine ⟨fun c' hc => ?_, fun _ => ⟨_, rfl⟩⟩
      rw [← Option.some.inj hc, hmem, hm, le_antisymm hlast hk]
    · rw [if_neg (mt (hnext.sle_iff hk).mp hlast)]
      obtain ⟨hat, hmap⟩ := hnext.mapAddress (by omega)
      obtain ⟨hsome, hfuel⟩ := ih hat (by omega) (by rw [hmap, hmem, hm]; rfl)
      exact ⟨hsome, fun hf => hfuel (by omega)⟩

variable (img) in
lemma start_spec (machineHandler supervisorHandler : Word) (fuel : ℕ) :
    (∀ c', start img machineHandler supervisorHandler fuel c = some c' →
      c'.mem = img.mapUart (img.mapPages c.mem img.pages) ∧
        c'.csrs .satp = img.bootPageDirectory >>> 12 ||| BitVec.ofInt 64 9 <<< 20 <<< 20 <<< 20) ∧
      (img.pages ≤ fuel → ∃ c', start img machineHandler supervisorHandler fuel c = some c') := by
  obtain ⟨c₀, hc₀, hm₀, ha₀, hat₀⟩ := kernelAddresses_spec img (c := c)
  have hpos : 0 < img.pages := by
    have hstart := kernelStart_lt img
    rw [kernelStart] at hstart
    rw [BootImage.pages, kernelStart, extraPages]
    omega
  have hs := bootMapAddress_spec img (AtPage.address_lt hpos) (by norm_num) ha₀ hat₀.s7
  obtain ⟨hsome, hfuel⟩ := mapNextAddress_spec (m := c.mem) fuel (hat₀.of_saved hs) hpos
    (by rw [hs.mem, hm₀]; rfl)
  rw [start, exec_append, hc₀]
  refine ⟨fun c' hc => ?_, fun hf => ?_⟩
  · obtain ⟨c₁, hc₁, rfl⟩ := Option.map_eq_some_iff.mp hc
    obtain ⟨hm, hsatp⟩ := jumpToC_spec img (c := c₁) machineHandler supervisorHandler
    exact ⟨by rw [hm, hsome c₁ hc₁], hsatp⟩
  · obtain ⟨c₁, hc₁⟩ := hfuel (by omega)
    exact ⟨_, Option.map_eq_some_iff.mpr ⟨c₁, hc₁, rfl⟩⟩

end Registers

end TetraOS.Memory
