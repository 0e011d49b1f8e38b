import TetraOS.Library.Riscv

/-! A system call from the library of a program (tlibc/syscalls/syscall.c) to the return into the program
(kernel/boot.s, kernel/exception.cpp, kernel/exception.s), and the switch to a program (kernel/process/process.s).
Stack accesses are taken to reach the kernel's stack, in machine mode too. -/

namespace TetraOS.Processes

open Library.ByteMemory Library.Riscv

def ecall (c : Cpu) : Cpu := (c.setCsr .mepc c.pc).setCsr .mcause 8

def switchToProcess : List Instr :=
  [.csrw .sepc (.a 0), .csrw .sscratch .sp, .add .sp (.a 1) .zero, .sret]

def swapStackPointers : List Instr :=
  [.add (.t 1) .zero .sp, .csrr .sp .sscratch, .csrw .sscratch (.t 1)]

/-- The entry of a trap. Machine mode does not translate the stack pointer that it takes from `sscratch`, which is a
virtual address; its stores are assumed to reach the stack of the kernel all the same, without a trap of their own. -/
def jumpToMachineExceptionHandler (machineExceptionHandler : Word) : List Instr := List.flatten [
  [.csrr (.t 0) .mcause], swapStackPointers, [.addi .sp .sp (-96)], saves .sp Reg.s,
  [.csrr (.t 1) .mepc, .csrr (.t 2) .mepc, .addi (.t 3) .zero 0, .lui (.t 3) 0x80000, .slli (.t 3) (.t 3) 16,
    .la (.t 4) machineExceptionHandler, .add (.t 3) (.t 3) (.t 4), .csrw .mepc (.t 3), .addi (.t 3) .zero 1,
    .slli (.t 3) (.t 3) 11, .csrr (.t 4) .mstatus, .or (.t 3) (.t 4) (.t 3), .csrw .mstatus (.t 3), .mret]]

def jumpBackToUserspace : List Instr := List.flatten [
  [.add (.a 3) .zero (.a 1), .add (.t 0) .zero (.a 0)], restores .sp Reg.s,
  [.addi .sp .sp 96, .addi (.a 0) .zero 1, .slli (.a 0) (.a 0) 8, .not (.a 0) (.a 0), .csrr (.a 1) .sstatus,
    .and (.a 0) (.a 1) (.a 0), .csrw .sstatus (.a 0)], swapStackPointers,
  [.addi (.t 0) (.t 0) 4, .csrw .sepc (.t 0), .add (.a 0) .zero (.a 3), .sret]]

/-- The compiled `machine_exception_handler`, from its first instruction to its call of `jump_back_to_userspace` for a
system call. Its prologue has taken a stack frame by then, and the functions it has called have returned theirs. -/
structure CompiledHandler where
  address : Word
  frame : Word
  frame_ne : frame ≠ 0
  run : Cpu → Cpu
  sp : ∀ c, (run c).get .sp = c.get .sp - frame
  sscratch : ∀ c, (run c).csrs .sscratch = c.csrs .sscratch

def syscall (h : CompiledHandler) (c : Cpu) : Cpu :=
  exec jumpBackToUserspace (h.run (exec (jumpToMachineExceptionHandler h.address) (ecall c)))

structure SyscallParameters where
  a0 : ℕ
  a1 : ℕ
  a2 : ℕ
  a7 : ℕ

def syscallParameters (c : Cpu) : SyscallParameters :=
  ⟨(c.get (.a 0)).toNat, (c.get (.a 1)).toNat, (c.get (.a 2)).toNat, (c.get (.a 7)).toNat⟩

/-- `syscall` of the library up to its `ecall`. The compiled code takes `number` from its stack frame, through `a5`. -/
def tlibcSyscall (number : Word) : List Instr :=
  [.add (.a 0) .zero (.a 1), .add (.a 1) .zero (.a 2), .add (.a 2) .zero (.a 3), .add (.a 3) .zero (.a 4),
    .add (.a 4) .zero (.a 5), .add (.a 5) .zero (.a 6), .la (.a 5) number, .add (.a 7) .zero (.a 5)]

def tlibcWrite (fd buf count : Word) (c : Cpu) : Cpu :=
  exec (tlibcSyscall 1) ((((c.set (.a 0) 1).set (.a 1) fd).set (.a 2) buf).set (.a 3) count)

/-- What a system call owes to the program and to the next system call. -/
structure Preserves (c c' : Cpu) : Prop where
  saved : ∀ i, c'.get (.s i) = c.get (.s i)
  sp : c'.get .sp = c.get .sp
  sscratch : c'.csrs .sscratch = c.csrs .sscratch

/-- A program that has made `n` system calls. In between it may do anything but write control registers. -/
inductive Runs (h : CompiledHandler) (c₀ : Cpu) : ℕ → Cpu → Prop
  | start : Runs h c₀ 0 (exec switchToProcess c₀)
  | user {n : ℕ} {c c' : Cpu} : Runs h c₀ n c → c'.csrs = c.csrs → Runs h c₀ n c'
  | syscall {n : ℕ} {c : Cpu} : Runs h c₀ n c → Runs h c₀ (n + 1) (syscall h c)

section Specs

variable (c : Cpu)

lemma get_swapStackPointers : (exec swapStackPointers c).get .sp = c.csrs .sscratch := rfl

lemma csrs_swapStackPointers : (exec swapStackPointers c).csrs .sscratch = c.get .sp := by
  simp [swapStackPointers, step, get_set]

lemma jumpToMachineExceptionHandler_spec (address : Word) : ∃ c',
    exec (jumpToMachineExceptionHandler address) c = c' ∧ c'.get .sp = c.csrs .sscratch - 96 ∧
      c'.csrs .sscratch = c.get .sp := by
  obtain ⟨m, hsaves⟩ := exec_saves .sp Reg.s
    (exec [.addi .sp .sp (-96)] (exec swapStackPointers (exec [.csrr (.t 0) .mcause] c)))
  refine ⟨_, rfl, ?_, ?_⟩
  · simp only [jumpToMachineExceptionHandler, List.flatten_cons, List.flatten_nil, exec_append, hsaves]
    change (exec swapStackPointers (exec [.csrr (.t 0) .mcause] c)).get .sp + BitVec.ofInt 64 (-96) = _
    rw [get_swapStackPointers]
    change c.csrs .sscratch + BitVec.ofInt 64 (-96) = _
    bv_omega
  · simp only [jumpToMachineExceptionHandler, List.flatten_cons, List.flatten_nil, exec_append, hsaves]
    exact csrs_swapStackPointers (exec [.csrr (.t 0) .mcause] c)

/-- On the way back, the saved registers are loaded from where the stack pointer is by then, and their 96 bytes are
given back to it before the swap. -/
lemma jumpBackToUserspace_spec : ∃ c', exec jumpBackToUserspace c = c' ∧ c'.get .sp = c.csrs .sscratch ∧
    c'.csrs .sscratch = c.get .sp + 96 ∧
    ∀ i : Fin 12, c'.get (.s i) = BitVec.ofNat 64 (load c.mem 8 (c.address .sp (8 * i))) := by
  have hbase : ∀ i, Reg.s i ≠ .sp := fun _ => by simp
  obtain ⟨c₁, hrestores, hcsrs, _, _, hregs, hrest⟩ := exec_restores
    (exec [.add (.a 3) .zero (.a 1), .add (.t 0) .zero (.a 0)] c) hbase (fun _ => by simp)
    (fun i j hij => by simpa using hij)
  refine ⟨_, rfl, ?_, ?_, fun i => ?_⟩
  · simp only [jumpBackToUserspace, List.flatten_cons, List.flatten_nil, exec_append, hrestores]
    exact congrFun hcsrs .sscratch
  · simp only [jumpBackToUserspace, List.flatten_cons, List.flatten_nil, exec_append, hrestores]
    refine (csrs_swapStackPointers _).trans ?_
    change c₁.get .sp + BitVec.ofInt 64 96 = _
    rw [hrest .sp (by simp)]
    rfl
  · simp only [jumpBackToUserspace, List.flatten_cons, List.flatten_nil, exec_append, hrestores]
    exact hregs i

lemma get_a_jumpToMachineExceptionHandler (address : Word) (i : Fin 8) :
    (exec (jumpToMachineExceptionHandler address) (ecall c)).get (.a i) = c.get (.a i) := by
  obtain ⟨m, hsaves⟩ := exec_saves .sp Reg.s
    (exec [.addi .sp .sp (-96)] (exec swapStackPointers (exec [.csrr (.t 0) .mcause] (ecall c))))
  simp only [jumpToMachineExceptionHandler, List.flatten_cons, List.flatten_nil, exec_append, hsaves]
  rfl

lemma syscallParameters_write (address fd buf count : Word) :
    syscallParameters (exec (jumpToMachineExceptionHandler address) (ecall (tlibcWrite fd buf count c))) =
      ⟨fd.toNat, buf.toNat, count.toNat, 1⟩ := by
  simp only [syscallParameters, get_a_jumpToMachineExceptionHandler, tlibcWrite, tlibcSyscall, exec_cons, exec_nil,
    step, get_set]
  simp

end Specs

/-- A system call gives the program its stack pointer back. Its saved registers come from the stack frame of the
handler, and the kernel's stack pointer stays below that frame. -/
lemma syscall_spec (h : CompiledHandler) (c : Cpu) : (syscall h c).get .sp = c.get .sp ∧
    (syscall h c).csrs .sscratch = c.csrs .sscratch - h.frame ∧ ∃ m, ∀ i : Fin 12, (syscall h c).get (.s i) =
      BitVec.ofNat 64 (load m 8 (c.csrs .sscratch - 96 - h.frame + BitVec.ofNat 64 (8 * i)).toNat) := by
  obtain ⟨c₁, h₁, hsp₁, hscratch₁⟩ := jumpToMachineExceptionHandler_spec (ecall c) h.address
  obtain ⟨c₂, h₂, hsp₂, hscratch₂, hregs₂⟩ := jumpBackToUserspace_spec (h.run c₁)
  have hecall : (ecall c).csrs .sscratch = c.csrs .sscratch := rfl
  have hget : (ecall c).get .sp = c.get .sp := rfl
  rw [hecall] at hsp₁
  rw [syscall, h₁, h₂]
  refine ⟨?_, ?_, (h.run c₁).mem, fun i => ?_⟩
  · rw [hsp₂, h.sscratch, hscratch₁, hget]
  · rw [hscratch₂, h.sp, hsp₁]
    bv_omega
  · rw [hregs₂, Cpu.address, h.sp, hsp₁]

lemma not_preserves_syscall (h : CompiledHandler) (c : Cpu) : ¬ Preserves c (syscall h c) := by
  intro hp
  have hscratch := (syscall_spec h c).2.1
  rw [hp.sscratch] at hscratch
  have hne := h.frame_ne
  apply hne
  bv_omega

lemma Runs.sscratch {h : CompiledHandler} {c₀ c : Cpu} {n : ℕ} (hrun : Runs h c₀ n c) :
    c.csrs .sscratch = c₀.get .sp - BitVec.ofNat 64 n * h.frame := by
  induction hrun with
  | start =>
    rw [BitVec.zero_mul, BitVec.sub_zero]
    rfl
  | user _ hcsrs ih => rw [hcsrs, ih]
  | syscall _ ih =>
    rw [(syscall_spec h _).2.1, ih, BitVec.ofNat_add, BitVec.add_mul, BitVec.one_mul]
    bv_omega

/-- Over every run of a program: each system call costs the kernel the stack frame of the handler, so that none
preserves the context, whatever the size of the frame. -/
theorem syscall_never_preserves (h : CompiledHandler) (c₀ c : Cpu) (n : ℕ) (hrun : Runs h c₀ n c) :
    c.csrs .sscratch = c₀.get .sp - BitVec.ofNat 64 n * h.frame ∧ ¬ Preserves c (syscall h c) :=
  ⟨hrun.sscratch, not_preserves_syscall h c⟩

def smallHandler : CompiledHandler where
  address := 0x80001000
  frame := 160
  frame_ne := by decide
  run := fun c => c.set .sp (c.get .sp - 160)
  sp := fun _ => get_set_self (by decide)
  sscratch := fun _ => rfl

/-- The kernel about to start a program with the stack pointer that `submit_new_process` gives it. -/
def beforeSwitch : Cpu where
  regs := fun r => if r = .sp then 0xFFFF800080002000 else if r = .a 1 then 0x100FA0 else 0
  csrs := fun _ => 0
  pc := 0xFFFF800080001000
  mem := fun _ => 0

theorem syscall_never_preserves_small : ∃ c, Runs smallHandler beforeSwitch 1 c ∧
    c.csrs .sscratch = 0xFFFF800080001F60 ∧ ¬ Preserves c (syscall smallHandler c) := by
  have hrun : Runs smallHandler beforeSwitch 1 (syscall smallHandler (exec switchToProcess beforeSwitch)) :=
    Runs.syscall Runs.start
  obtain ⟨hscratch, hnot⟩ := syscall_never_preserves smallHandler beforeSwitch _ 1 hrun
  have hvalue : beforeSwitch.get .sp - BitVec.ofNat 64 1 * smallHandler.frame = 0xFFFF800080001F60 := by decide
  exact ⟨_, hrun, hscratch.trans hvalue, hnot⟩

theorem first_syscall_not_preserves : ∃ c, Runs smallHandler beforeSwitch 0 c ∧ c.get .sp = 0x100FA0 ∧
    c.csrs .sscratch = 0xFFFF800080002000 ∧ (syscall smallHandler c).csrs .sscratch = 0xFFFF800080001F60 ∧
    ¬ Preserves c (syscall smallHandler c) := by
  have hvalue : (0xFFFF800080002000 : Word) - smallHandler.frame = 0xFFFF800080001F60 := by decide
  have hscratch : (exec switchToProcess beforeSwitch).csrs .sscratch = 0xFFFF800080002000 := by decide
  have hdrift := (syscall_spec smallHandler (exec switchToProcess beforeSwitch)).2.1
  rw [hscratch, hvalue] at hdrift
  exact ⟨_, Runs.start, by decide, hscratch, hdrift, not_preserves_syscall smallHandler _⟩

end TetraOS.Processes
