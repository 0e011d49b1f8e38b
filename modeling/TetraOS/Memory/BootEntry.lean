import TetraOS.Memory.BootMapping

/-! From the reset of a hart to the kernel (kernel/boot.s): what is left of `jump_to_c` when `satp` is written, with the
modes of the processor and its protection of physical memory. -/

namespace TetraOS.Memory

open Library.ByteMemory Library.Riscv

abbrev stackSize : ℕ := 8192

inductive Mode where
  | user | supervisor | reserved | machine
  deriving DecidableEq

def mpp (mstatus : Word) : Mode :=
  match mstatus.getLsbD 12, mstatus.getLsbD 11 with
  | false, false => .user
  | false, true => .supervisor
  | true, false => .reserved
  | true, true => .machine

/-- A processor with its mode and the first entry of its physical memory protection. -/
structure Hart where
  cpu : Cpu
  mode : Mode
  pmpcfg0 : Word
  pmpaddr0 : Word

/-- The entry is a naturally aligned power of two (A = 3) that may be read, written and executed, and `p` is in it. -/
def Hart.Permits (h : Hart) (p : ℕ) : Prop :=
  h.pmpcfg0 &&& 0x1F = 0x1F ∧
    BitVec.ofNat 64 (p / 4) ||| (h.pmpaddr0 ^^^ (h.pmpaddr0 + 1)) = h.pmpaddr0 ||| (h.pmpaddr0 ^^^ (h.pmpaddr0 + 1))

/-- Where the linker puts the code and the stacks of the boot, all in `.text`. -/
structure BootSymbols extends BootImage where
  machineHandler : ℕ
  supervisorHandler : ℕ
  osStart : ℕ
  stacksStart : ℕ
  supervisorHandler_ge : kernelStart ≤ supervisorHandler
  supervisorHandler_lt : supervisorHandler < tables
  machineHandler_lt : machineHandler < tables
  osStart_ge : kernelStart ≤ osStart
  osStart_lt : osStart < tables
  stacksStart_ge : kernelStart ≤ stacksStart
  stacksStart_le : stacksStart + 4 * stackSize ≤ tables

section Code

def prepareMret (osStart : Word) : List Instr :=
  [.addi (.t 0) .zero 0, .lui (.t 0) 0x80000, .slli (.t 1) (.t 0) 16, .la (.a 2) osStart, .add (.t 2) (.t 1) (.a 2),
    .csrw .mepc (.t 2), .addi (.a 1) .zero 1, .slli (.a 1) (.a 1) 11, .csrr (.a 2) .mstatus,
    .or (.a 1) (.a 1) (.a 2), .csrw .mstatus (.a 1)]

def adjustStackPointer : List Instr :=
  [.addi (.a 3) .zero 0, .lui (.a 3) 0x80000, .slli (.a 3) (.a 3) 16, .add .sp .sp (.a 3)]

def Hart.exec (code : List Instr) (h : Hart) : Hart := { h with cpu := Library.Riscv.exec code h.cpu }

def Hart.setPmpcfg0 (rs : Reg) (h : Hart) : Hart := { h with pmpcfg0 := h.cpu.get rs }

def Hart.setPmpaddr0 (rs : Reg) (h : Hart) : Hart := { h with pmpaddr0 := h.cpu.get rs }

def Hart.mret (h : Hart) : Hart := { h with cpu := step h.cpu .mret, mode := mpp (h.cpu.csrs .mstatus) }

def jumpToOs (osStart : Word) (h : Hart) : Hart :=
  let h := h.exec (prepareMret osStart)
  let h := (h.exec [.addi (.a 1) .zero 0x1f]).setPmpcfg0 (.a 1)
  let h := (h.exec [.add (.a 1) .zero .zero, .not (.a 1) (.a 1)]).setPmpaddr0 (.a 1)
  (h.exec adjustStackPointer).mret

inductive BootOutcome where
  | parked
  | entered (h : Hart)

/-- `_start`. The harts other than the first wait for ever. -/
def bootHart (img : BootSymbols) (fuel : ℕ) (mhartid : Word) (h : Hart) : Option BootOutcome :=
  let c := h.cpu.set (.a 0) mhartid
  if c.get (.a 0) ≠ 0 then some .parked else
  let c := step c (.la .sp (BitVec.ofNat 64 (img.stacksStart + stackSize)))
  (start img.toBootImage (BitVec.ofNat 64 img.machineHandler) (BitVec.ofNat 64 img.supervisorHandler) fuel c).map
    fun c => .entered (jumpToOs (BitVec.ofNat 64 img.osStart) { h with cpu := c })

end Code

section Frames

variable {img : BootImage} {c c' : Cpu}

lemma bootMapAddress_frame (img : BootImage) (c : Cpu) :
    (exec (bootMapAddress img) c).get .sp = c.get .sp ∧ (exec (bootMapAddress img) c).csrs = c.csrs := by
  refine ⟨exec_get ?_ c, funext fun k => exec_csrs ?_ c⟩
  · simp [bootMapAddress, splitAddress, setBootEntry, Instr.dest]
  · simp [bootMapAddress, splitAddress, setBootEntry, Instr.csrDest]

lemma bootUartMapAddress_frame (img : BootImage) (c : Cpu) :
    (exec (bootUartMapAddress img) c).get .sp = c.get .sp ∧ (exec (bootUartMapAddress img) c).csrs = c.csrs := by
  refine ⟨exec_get ?_ c, funext fun k => exec_csrs ?_ c⟩
  · simp [bootUartMapAddress, loadVirtualOffset, splitAddress, setBootEntry, Instr.dest]
  · simp [bootUartMapAddress, loadVirtualOffset, splitAddress, setBootEntry, Instr.csrDest]

lemma kernelAddresses_frame (img : BootImage) (c : Cpu) :
    (exec (kernelAddresses img) c).get .sp = c.get .sp ∧ (exec (kernelAddresses img) c).csrs = c.csrs := by
  refine ⟨exec_get ?_ c, funext fun k => exec_csrs ?_ c⟩
  · simp [kernelAddresses, loadVirtualOffset, Instr.dest]
  · simp [kernelAddresses, loadVirtualOffset, Instr.csrDest]

lemma nextAddress_frame (c : Cpu) :
    (exec nextAddress c).get .sp = c.get .sp ∧ (exec nextAddress c).csrs = c.csrs := by
  refine ⟨exec_get ?_ c, funext fun k => exec_csrs ?_ c⟩
  · simp [nextAddress, Instr.dest]
  · simp [nextAddress, Instr.csrDest]

lemma mapNextAddress_frame {fuel : ℕ} (h : mapNextAddress img fuel c = some c') :
    c'.get .sp = c.get .sp ∧ c'.csrs = c.csrs := by
  induction fuel generalizing c with
  | zero => exact absurd h (by simp [mapNextAddress])
  | succ fuel ih =>
    obtain ⟨hsp, hcsrs⟩ := nextAddress_frame c
    rw [mapNextAddress] at h
    split_ifs at h with hlast
    · obtain rfl := Option.some.inj h
      exact ⟨hsp, hcsrs⟩
    · obtain ⟨hsp', hcsrs'⟩ := ih h
      obtain ⟨hsp₁, hcsrs₁⟩ := bootMapAddress_frame img (step (exec nextAddress c) (.add (.a 0) (.s 8) .zero))
      rw [exec_cons] at hsp' hcsrs'
      refine ⟨?_, ?_⟩
      · rw [hsp', hsp₁, step_get (by simp [Instr.dest]), hsp]
      · rw [hcsrs', hcsrs₁, ← hcsrs]
        exact funext fun k => step_csrs (by simp [Instr.csrDest]) _

structure VectorsSet (machineHandler supervisorHandler : Word) (c c' : Cpu) : Prop where
  sp : c'.get .sp = c.get .sp
  mstatus : c'.csrs .mstatus = c.csrs .mstatus
  mtvec : c'.csrs .mtvec = machineHandler
  stvec : c'.csrs .stvec = BitVec.ofNat 64 virtualOffset + supervisorHandler

lemma exec_handlers (machineHandler supervisorHandler v offset : Word) (hc : c' = exec [.la (.a 3) supervisorHandler,
      .add (.a 2) (.a 2) (.a 3), .csrw .stvec (.a 2)] (((exec [.la (.a 3) machineHandler, .csrw .mtvec (.a 3),
        .addi (.a 2) .zero 0] c).set (.a 2) v).set (.a 2) offset)) :
    c'.get .sp = c.get .sp ∧ c'.csrs .mstatus = c.csrs .mstatus ∧ c'.csrs .mtvec = machineHandler ∧
      c'.csrs .stvec = offset + supervisorHandler := by
  subst hc
  refine ⟨?_, ?_, ?_, ?_⟩ <;> simp [step, get_set]

lemma setHandlers_spec (machineHandler supervisorHandler : Word) (c : Cpu) :
    VectorsSet machineHandler supervisorHandler c (exec (setHandlers machineHandler supervisorHandler) c) := by
  simp only [setHandlers, List.flatten_cons, List.flatten_nil, List.append_nil, exec_append]
  rw [loadVirtualOffset_spec (.a 2) (by simp)]
  obtain ⟨hsp, hmstatus, hmtvec, hstvec⟩ := exec_handlers machineHandler supervisorHandler _ _ (c := c) rfl
  exact ⟨hsp, hmstatus, hmtvec, hstvec⟩

lemma setSatp_frame (img : BootImage) (c : Cpu) : (exec (setSatp img) c).get .sp = c.get .sp ∧
    ∀ k, k ≠ .satp → (exec (setSatp img) c).csrs k = c.csrs k := by
  refine ⟨exec_get ?_ c, fun k hk => exec_csrs ?_ c⟩
  · simp [setSatp, Instr.dest]
  · simpa [setSatp, Instr.csrDest] using hk.symm

lemma start_frame {machineHandler supervisorHandler : Word} {fuel : ℕ}
    (h : start img machineHandler supervisorHandler fuel c = some c') :
    VectorsSet machineHandler supervisorHandler c c' := by
  obtain ⟨c₁, h₁, rfl⟩ := Option.map_eq_some_iff.mp h
  obtain ⟨hsp₁, hcsrs₁⟩ := mapNextAddress_frame h₁
  rw [exec_append] at hsp₁ hcsrs₁
  obtain ⟨hsp₀, hcsrs₀⟩ := kernelAddresses_frame img c
  obtain ⟨hsp, hcsrs⟩ := bootMapAddress_frame img (exec (kernelAddresses img) c)
  simp only [jumpToC, List.flatten_cons, List.flatten_nil, List.append_nil, exec_append]
  obtain ⟨hsp₂, hmstatus₂, hmtvec₂, hstvec₂⟩ := setHandlers_spec machineHandler supervisorHandler c₁
  generalize exec (setHandlers machineHandler supervisorHandler) c₁ = c₂ at *
  obtain ⟨hsp₃, hcsrs₃⟩ := bootUartMapAddress_frame img c₂
  generalize exec (bootUartMapAddress img) c₂ = c₃ at *
  obtain ⟨hsp₄, hcsrs₄⟩ := setSatp_frame img c₃
  refine ⟨?_, ?_, ?_, ?_⟩
  · rw [hsp₄, hsp₃, hsp₂, hsp₁, hsp, hsp₀]
  · rw [hcsrs₄ _ (by decide), hcsrs₃, hmstatus₂, hcsrs₁, hcsrs, hcsrs₀]
  · rw [hcsrs₄ _ (by decide), hcsrs₃, hmtvec₂]
  · rw [hcsrs₄ _ (by decide), hcsrs₃, hstvec₂]

end Frames

section Entry

lemma mem_mret (c : Cpu) : (step c .mret).mem = c.mem := rfl

lemma permits_allOnes {h : Hart} (hcfg : h.pmpcfg0 = 0x1F) (haddr : h.pmpaddr0 = BitVec.allOnes 64) (p : ℕ) :
    h.Permits p := by
  have hmask : BitVec.allOnes 64 ^^^ (BitVec.allOnes 64 + 1) = BitVec.allOnes 64 := by decide
  rw [Hart.Permits, hcfg, haddr, hmask, BitVec.or_allOnes, BitVec.or_self]
  exact ⟨by decide, rfl⟩

lemma mpp_or (mstatus : Word) :
    mpp ((1 : Word) <<< 11 ||| mstatus) = if mstatus.getLsbD 12 then .machine else .supervisor := by
  have h₁₁ : ((1 : Word) <<< 11 ||| mstatus).getLsbD 11 = true := by simp
  have h₁₂ : ((1 : Word) <<< 11 ||| mstatus).getLsbD 12 = mstatus.getLsbD 12 := by simp
  rw [mpp, h₁₁, h₁₂]
  cases mstatus.getLsbD 12 <;> rfl

structure JumpsTo (osStart : Word) (h h' : Hart) : Prop where
  mem : h'.cpu.mem = h.cpu.mem
  csrs : ∀ k, k ≠ .mepc → k ≠ .mstatus → h'.cpu.csrs k = h.cpu.csrs k
  pc : h'.cpu.pc = BitVec.ofNat 64 virtualOffset + osStart
  sp : h'.cpu.get .sp = h.cpu.get .sp + BitVec.ofNat 64 virtualOffset
  mode : h'.mode = if (h.cpu.csrs .mstatus).getLsbD 12 then .machine else .supervisor
  permits : ∀ p, h'.Permits p

variable {c c' : Cpu}

lemma exec_prepareMret (imm shift bit : ℕ) (one : ℤ) (osStart : Word) (hc : c' = exec [.addi (.t 0) .zero 0,
      .lui (.t 0) imm, .slli (.t 1) (.t 0) shift, .la (.a 2) osStart, .add (.t 2) (.t 1) (.a 2), .csrw .mepc (.t 2),
      .addi (.a 1) .zero one, .slli (.a 1) (.a 1) bit, .csrr (.a 2) .mstatus, .or (.a 1) (.a 1) (.a 2),
      .csrw .mstatus (.a 1)] c) :
    c'.mem = c.mem ∧ c'.get .sp = c.get .sp ∧
      c'.csrs .mepc = (BitVec.ofNat 32 (imm * 4096)).signExtend 64 <<< shift + osStart ∧
      c'.csrs .mstatus = BitVec.ofInt 64 one <<< bit ||| c.csrs .mstatus ∧
      ∀ k, k ≠ .mepc → k ≠ .mstatus → c'.csrs k = c.csrs k := by
  subst hc
  refine ⟨rfl, ?_, ?_, ?_, fun k h₁ h₂ => ?_⟩
  · exact exec_get (by simp [Instr.dest]) c
  · simp [step, get_set]
  · simp [step, get_set]
  · exact exec_csrs (by simp [Instr.csrDest, h₁.symm, h₂.symm]) c

lemma prepareMret_spec (osStart : Word) (hc : c' = exec (prepareMret osStart) c) :
    c'.mem = c.mem ∧ c'.get .sp = c.get .sp ∧ c'.csrs .mepc = BitVec.ofNat 64 virtualOffset + osStart ∧
      c'.csrs .mstatus = (1 : Word) <<< 11 ||| c.csrs .mstatus ∧
      ∀ k, k ≠ .mepc → k ≠ .mstatus → c'.csrs k = c.csrs k := by
  obtain ⟨hm, hsp, hmepc, hmstatus, hcsrs⟩ := exec_prepareMret 0x80000 16 11 1 osStart hc
  exact ⟨hm, hsp, hmepc.trans (congrArg (· + osStart) highHalf_shift), hmstatus, hcsrs⟩

lemma exec_addOffset (v offset : Word) (hc : c' = exec [.add .sp .sp (.a 3)]
      (((exec [.addi (.a 3) .zero 0] c).set (.a 3) v).set (.a 3) offset)) :
    c'.mem = c.mem ∧ c'.csrs = c.csrs ∧ c'.get .sp = c.get .sp + offset := by
  subst hc
  refine ⟨rfl, rfl, ?_⟩
  simp [step, get_set]

lemma adjustStackPointer_spec (hc : c' = exec adjustStackPointer c) :
    c'.mem = c.mem ∧ c'.csrs = c.csrs ∧ c'.get .sp = c.get .sp + BitVec.ofNat 64 virtualOffset := by
  have hsplit : exec adjustStackPointer c =
      exec [.add .sp .sp (.a 3)] (exec (loadVirtualOffset (.a 3)) (exec [.addi (.a 3) .zero 0] c)) := rfl
  rw [hsplit, loadVirtualOffset_spec (.a 3) (by simp)] at hc
  exact exec_addOffset _ _ hc

lemma exec_pmpcfg0 (c : Cpu) {c' : Cpu} (hc : exec [.addi (.a 1) .zero 0x1f] c = c') :
    c'.mem = c.mem ∧ c'.get .sp = c.get .sp ∧ c'.csrs = c.csrs ∧ c'.get (.a 1) = 0x1F := by
  subst hc
  exact ⟨rfl, by simp [step, get_set], rfl, by simp [step, get_set]⟩

lemma exec_pmpaddr0 (c : Cpu) {c' : Cpu} (hc : exec [.add (.a 1) .zero .zero, .not (.a 1) (.a 1)] c = c') :
    c'.mem = c.mem ∧ c'.get .sp = c.get .sp ∧ c'.csrs = c.csrs ∧ c'.get (.a 1) = BitVec.allOnes 64 := by
  subst hc
  exact ⟨rfl, by simp [step, get_set], rfl, by simp [step, get_set]⟩

lemma jumpToOs_spec (osStart : Word) (h : Hart) : JumpsTo osStart h (jumpToOs osStart h) := by
  obtain ⟨hm₁, hsp₁, hmepc, hmstatus, hcsrs₁⟩ := prepareMret_spec osStart (c := h.cpu) rfl
  simp only [jumpToOs, Hart.exec, Hart.setPmpcfg0, Hart.setPmpaddr0, Hart.mret]
  generalize Library.Riscv.exec (prepareMret osStart) h.cpu = c₁ at *
  obtain ⟨hm₂, hsp₂, hcsrs₂, hcfg⟩ := exec_pmpcfg0 c₁ rfl
  generalize Library.Riscv.exec [.addi (.a 1) .zero 0x1f] c₁ = c₂ at *
  obtain ⟨hm₃, hsp₃, hcsrs₃, haddr⟩ := exec_pmpaddr0 c₂ rfl
  generalize Library.Riscv.exec [.add (.a 1) .zero .zero, .not (.a 1) (.a 1)] c₂ = c₃ at *
  obtain ⟨hm₄, hcsrs₄, hsp₄⟩ := adjustStackPointer_spec (c := c₃) rfl
  generalize Library.Riscv.exec adjustStackPointer c₃ = c₄ at *
  have hcsrs : c₄.csrs = c₁.csrs := by rw [hcsrs₄, hcsrs₃, hcsrs₂]
  refine ⟨?_, fun k h₁ h₂ => ?_, ?_, ?_, ?_, permits_allOnes hcfg haddr⟩
  · rw [mem_mret, hm₄, hm₃, hm₂, hm₁]
  · exact (congrFun hcsrs k).trans (hcsrs₁ k h₁ h₂)
  · exact (congrFun hcsrs .mepc).trans hmepc
  · rw [step_get (by simp [Instr.dest]), hsp₄, hsp₃, hsp₂, hsp₁]
  · rw [hcsrs, hmstatus, mpp_or]

end Entry

section Image

variable {img : BootImage} {m : Memory} {x : ℕ} (hx : x < img.tables ∨ img.tables + 7 * 4096 ≤ x)
include hx

lemma setEntry_outside {n a flags : ℕ} {i : Fin 512} (hn : n < 7) : img.setEntry m n i a flags x = m x := by
  have hi := i.isLt
  exact store_outside (by omega)

lemma mapAddress_outside {va p : ℕ} : img.mapAddress m va p x = m x := by
  simp only [BootImage.mapAddress]
  rw [setEntry_outside hx (by decide), setEntry_outside hx (by decide), setEntry_outside hx (by decide),
    setEntry_outside hx (by decide)]

lemma mapPages_outside (k : ℕ) : img.mapPages m k x = m x := by
  induction k with
  | zero => rfl
  | succ k ih => rw [BootImage.mapPages, mapAddress_outside hx, ih]

lemma mapUart_outside : img.mapUart m x = m x := by
  simp only [BootImage.mapUart]
  rw [setEntry_outside hx (by decide), setEntry_outside hx (by decide), setEntry_outside hx (by decide)]

end Image

/-- The next instruction is the first one of the kernel, its stack and its trap vectors are there, and of the memory
only the tables have changed. -/
structure InKernel (img : BootSymbols) (c : Cpu) (h : Hart) : Prop where
  code : sv48 h.cpu h.cpu.pc.toNat = some img.osStart
  stack : ∀ i, 0 < i → i ≤ stackSize →
    sv48 h.cpu ((h.cpu.get .sp).toNat - i) = some (img.stacksStart + stackSize - i)
  mtvec : h.cpu.csrs .mtvec = BitVec.ofNat 64 img.machineHandler
  stvec : sv48 h.cpu (h.cpu.csrs .stvec).toNat = some img.supervisorHandler
  mode : h.mode = .supervisor ↔ (c.csrs .mstatus).getLsbD 12 = false
  permits : ∀ p, h.Permits p
  image : ∀ x, x < img.tables ∨ img.tables + 7 * 4096 ≤ x → h.cpu.mem x = c.mem x

section Booting

variable {img : BootSymbols} {c : Cpu} {h h' : Hart}

lemma toNat_virtual {a : ℕ} (ha : a < 2 ^ 32) :
    (BitVec.ofNat 64 a + BitVec.ofNat 64 virtualOffset).toNat = virtualOffset + a := by
  rw [BitVec.toNat_add, BitVec.toNat_ofNat, BitVec.toNat_ofNat]
  simp only [virtualOffset]
  omega

lemma inKernel_of_jumpsTo {m : Memory} (hT : img.tables % 4096 = 0)
    (hsize : img.kernelEnd - kernelStart ≤ 232 * 4096) (hm : c.mem = m)
    (hsp : c.get .sp = BitVec.ofNat 64 (img.stacksStart + stackSize))
    (hstarted : Started img.toBootImage m h.cpu)
    (hset : VectorsSet (BitVec.ofNat 64 img.machineHandler) (BitVec.ofNat 64 img.supervisorHandler) c h.cpu)
    (hjump : JumpsTo (BitVec.ofNat 64 img.osStart) h h') : InKernel img c h' := by
  have hstarted' : Started img.toBootImage m h'.cpu :=
    ⟨hjump.mem.trans hstarted.mem, (hjump.csrs _ (by decide) (by decide)).trans hstarted.satp⟩
  have hmaps := (hstarted'.mapsKernel hT hsize).translates
  have htables := img.tables_le
  have hend := kernelEnd_le img.toBootImage
  rw [BootImage.kernelEnd] at hend
  have hmapped : ∀ p, kernelStart ≤ p → p < img.tables → BootMapped img.toBootImage p := fun p hp hp' =>
    Or.inl ⟨hp, by rw [BootImage.kernelEnd]; omega⟩
  have hcode := img.osStart_lt
  have hhandler := img.supervisorHandler_lt
  have hstacks := img.stacksStart_ge
  have hstacks' := img.stacksStart_le
  rw [stackSize] at hstacks'
  refine ⟨?_, fun i hi hi' => ?_, ?_, ?_, ?_, hjump.permits, fun x hx => ?_⟩
  · rw [hjump.pc, BitVec.add_comm, toNat_virtual (by omega)]
    exact hmaps _ (hmapped _ img.osStart_ge hcode)
  · rw [stackSize] at hi'
    rw [hjump.sp, hset.sp, hsp, toNat_virtual (by rw [stackSize]; omega), stackSize,
      show virtualOffset + (img.stacksStart + 8192) - i = virtualOffset + (img.stacksStart + 8192 - i) by omega]
    exact hmaps _ (hmapped _ (by omega) (by omega))
  · rw [hjump.csrs _ (by decide) (by decide), hset.mtvec]
  · rw [hjump.csrs _ (by decide) (by decide), hset.stvec, BitVec.add_comm, toNat_virtual (by omega)]
    exact hmaps _ (hmapped _ img.supervisorHandler_ge hhandler)
  · rw [hjump.mode, hset.mstatus]
    cases (c.csrs .mstatus).getLsbD 12 <;> simp
  · rw [hjump.mem, hstarted.mem, mapUart_outside hx, mapPages_outside hx, hm]

lemma bootHart_cases {fuel : ℕ} {mhartid : Word} (hboot : bootHart img fuel mhartid h = some (.entered h')) :
    mhartid = 0 ∧ ∃ c', start img.toBootImage (BitVec.ofNat 64 img.machineHandler)
        (BitVec.ofNat 64 img.supervisorHandler) fuel
        (step (h.cpu.set (.a 0) mhartid) (.la .sp (BitVec.ofNat 64 (img.stacksStart + stackSize)))) = some c' ∧
      h' = jumpToOs (BitVec.ofNat 64 img.osStart) { h with cpu := c' } := by
  simp only [bootHart, get_set_self (by simp : Reg.a 0 ≠ .zero)] at hboot
  by_cases hid : mhartid = 0
  · rw [if_neg (not_not.mpr hid)] at hboot
    obtain ⟨c', hstart, hentered⟩ := Option.map_eq_some_iff.mp hboot
    exact ⟨hid, c', hstart, (BootOutcome.entered.inj hentered).symm⟩
  · rw [if_pos hid] at hboot
    cases hboot

end Booting

/-- For every image with aligned tables that one last-level table is enough for, the first hart gets to the kernel, in
supervisor mode exactly when the upper bit of MPP was clear at reset, and no other hart does. -/
theorem boot_enters_kernel (img : BootSymbols) (hT : img.tables % 4096 = 0)
    (hsize : img.kernelEnd - kernelStart ≤ 232 * 4096) (h : Hart) :
    (∃ fuel h', bootHart img fuel 0 h = some (.entered h')) ∧
      ∀ fuel mhartid h', bootHart img fuel mhartid h = some (.entered h') → mhartid = 0 ∧ InKernel img h.cpu h' := by
  refine ⟨?_, fun fuel mhartid h' hboot => ?_⟩
  · obtain ⟨c', hstart⟩ := (start_spec img.toBootImage (c := step (h.cpu.set (.a 0) 0)
      (.la .sp (BitVec.ofNat 64 (img.stacksStart + stackSize)))) (BitVec.ofNat 64 img.machineHandler)
      (BitVec.ofNat 64 img.supervisorHandler) img.pages).2 le_rfl
    refine ⟨img.pages, jumpToOs (BitVec.ofNat 64 img.osStart) { h with cpu := c' }, ?_⟩
    simp only [bootHart, get_set_self (by simp : Reg.a 0 ≠ .zero), ne_eq, not_true, if_false, hstart, Option.map_some]
  · obtain ⟨hid, c', hstart, rfl⟩ := bootHart_cases hboot
    obtain ⟨hmem, hsatp⟩ := (start_spec img.toBootImage _ _ fuel).1 c' hstart
    have hset := start_frame hstart
    have hin := inKernel_of_jumpsTo (h := { h with cpu := c' }) hT hsize rfl (get_set_self (by simp)) ⟨hmem, hsatp⟩ hset
      (jumpToOs_spec _ _)
    exact ⟨hid, hin.code, hin.stack, hin.mtvec, hin.stvec, hin.mode, hin.permits, hin.image⟩

def smallSymbols : BootSymbols where
  physicalHeapStart := 0x80017000
  physicalMemoryEnd := 4 * 2 ^ 30
  tables := 0x80010000
  kernelStart_le := by decide
  tables_le := by decide
  fits := by decide
  memoryEnd := by norm_num
  machineHandler := 0x80000100
  supervisorHandler := 0x80000200
  osStart := 0x80009000
  stacksStart := 0x80000400
  supervisorHandler_ge := by decide
  supervisorHandler_lt := by decide
  machineHandler_lt := by decide
  osStart_ge := by decide
  osStart_lt := by decide
  stacksStart_ge := by decide
  stacksStart_le := by decide

theorem boot_enters_kernel_small : ∃ fuel h',
    bootHart smallSymbols fuel 0 ⟨resetCpu, .machine, 0, 0⟩ = some (.entered h') ∧
    h'.mode = .supervisor ∧ sv48 h'.cpu h'.cpu.pc.toNat = some 0x80009000 ∧
    sv48 h'.cpu ((h'.cpu.get .sp).toNat - 8) = some 0x800023F8 := by
  obtain ⟨⟨fuel, h', hboot⟩, hentered⟩ :=
    boot_enters_kernel smallSymbols (by decide) (by decide) ⟨resetCpu, .machine, 0, 0⟩
  obtain ⟨_, hin⟩ := hentered fuel 0 h' hboot
  exact ⟨fuel, h', hboot, hin.mode.mpr (by decide), hin.code, hin.stack 8 (by decide) (by decide)⟩

end TetraOS.Memory
