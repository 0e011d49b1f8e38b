import TetraOS.Console.Write

/-! Traps from a program (kernel/boot.s, kernel/exception.cpp, kernel/exception.s): system calls, which return, and
exceptions, which the kernel reports before it stops. -/

namespace TetraOS.Console

open Memory Processes Library.Riscv PhysicalAllocator

/-- What the processor does on a trap. It also sets `mtval`, which no code reads. -/
def trap (cause : Word) (c : Cpu) : Cpu := (c.setCsr .mepc c.pc).setCsr .mcause cause

section Handler

def addressMisaligned : List UInt8 := ['I', 'n', 's', 't', 'r', 'u', 'c', 't', 'i', 'o', 'n', ' ', 'a', 'd', 'd', 'r',
  'e', 's', 's', ' ', 'm', 'i', 's', 'a', 'l', 'i', 'g', 'n', 'e', 'd'].map char

def accessFault : List UInt8 := ['I', 'n', 's', 't', 'r', 'u', 'c', 't', 'i', 'o', 'n', ' ', 'a', 'c', 'c', 'e', 's',
  's', ' ', 'f', 'a', 'u', 'l', 't'].map char

def illegalInstruction : List UInt8 := ['I', 'l', 'l', 'e', 'g', 'a', 'l', ' ', 'i', 'n', 's', 't', 'r', 'u', 'c',
  't', 'i', 'o', 'n'].map char

def instructionPageFault : List UInt8 := ['I', 'n', 's', 't', 'r', 'u', 'c', 't', 'i', 'o', 'n', ' ', 'p', 'a', 'g',
  'e', ' ', 'f', 'a', 'u', 'l', 't', ' ', 'a', 't', ' ', '0', 'x'].map char

def loadPageFault : List UInt8 := ['L', 'o', 'a', 'd', ' ', 'p', 'a', 'g', 'e', ' ', 'f', 'a', 'u', 'l', 't', ' ',
  'a', 't', ' ', '0', 'x'].map char

def storePageFault : List UInt8 := ['S', 't', 'o', 'r', 'e', '/', 'A', 'M', 'O', ' ', 'p', 'a', 'g', 'e', ' ', 'f',
  'a', 'u', 'l', 't', ' ', 'a', 't', ' ', '0', 'x'].map char

def unknownException : List UInt8 := ['G', 'o', 't', ' ', 'a', 'n', ' ', 'u', 'n', 'k', 'n', 'o', 'w', 'n', ' ', 'e',
  'x', 'c', 'e', 'p', 't', 'i', 'o', 'n', ':', ' '].map char

def exceptionLine (cause mtval : ℕ) : List UInt8 × List Arg :=
  match cause with
  | 0x0 => (addressMisaligned, [])
  | 0x1 => (accessFault, [])
  | 0x2 => (illegalInstruction, [])
  | 0xC => (instructionPageFault ++ [char '%', char 'x'], [.uint64 mtval])
  | 0xD => (loadPageFault ++ [char '%', char 'x'], [.uint64 mtval])
  | 0xF => (storePageFault ++ [char '%', char 'x'], [.uint64 mtval])
  | _ => (unknownException ++ [char '%', char 'i'], [.int (BitVec.ofNat 32 cause).toInt])

inductive Handled where
  | returns (s : State Frames) (mepcValue : Word) (out : List UInt8)
  | halts (out : List UInt8)

variable (limit fuel : ℕ)

/-- `machine_exception_handler`, with the registers that it finds. -/
def machineExceptionHandler (others : SyscallParameters → State Frames → Option (State Frames × List UInt8))
    (logLevel : ℕ) (c : Cpu) (s : State Frames) : Option Handled := do
  let cause := (c.get (.t 0)).toNat
  let mtval := (c.get (.t 1)).toNat
  let mepcValue := c.get (.t 2)
  if cause = 0x8 then
    let (s, out) ← handleSyscall limit fuel others logLevel (syscallParameters c) s
    some (.returns s mepcValue out)
  else
    let (fmt, args) := exceptionLine cause mtval
    let out ← log logLevel .exception fmt args
    some (.halts out)

end Handler

def faultText (cause address : ℕ) : List UInt8 :=
  match cause with
  | 0x0 => addressMisaligned
  | 0x1 => accessFault
  | 0x2 => illegalInstruction
  | 0xC => instructionPageFault ++ hexText address
  | 0xD => loadPageFault ++ hexText address
  | 0xF => storePageFault ++ hexText address
  | _ => unknownException ++ intText (BitVec.ofNat 32 cause).toInt

section Printing

lemma kernelVprintf_exceptionLine (cause : ℕ) {mtval : ℕ} (hm : mtval < 2 ^ 64) :
    kernelVprintf (exceptionLine cause mtval).1 (exceptionLine cause mtval).2 = some ([], faultText cause mtval) := by
  unfold exceptionLine faultText
  split
  · exact kernelVprintf_plain (by decide)
  · exact kernelVprintf_plain (by decide)
  · exact kernelVprintf_plain (by decide)
  · exact kernelVprintf_append (by decide) (vprintf_hexText [] [] · hm)
  · exact kernelVprintf_append (by decide) (vprintf_hexText [] [] · hm)
  · exact kernelVprintf_append (by decide) (vprintf_hexText [] [] · hm)
  · exact kernelVprintf_append (by decide) (vprintf_intText [] [] · BitVec.toInt_lt)

def syscallMessage (logLevel number : ℕ) : List UInt8 := if logLevel &&& LogLevel.bit .syscall = 0 then [] else
  (LogLevel.tag .syscall).map char ++ [char ' '] ++ (handling.dropLast.dropLast ++ intText number) ++ [char '\n']

lemma log_handling (logLevel : ℕ) {number : ℕ} (hn : number < 2 ^ 31) :
    log logLevel .syscall handling [.int (BitVec.ofNat 32 number).toInt] = some (syscallMessage logLevel number) := by
  have hint : (BitVec.ofNat 32 number).toInt = number := by
    rw [BitVec.toInt_ofNat', Int.bmod_eq_of_le (by omega) (by omega)]
  rw [hint]
  exact log_eq logLevel .syscall (kernelVprintf_append (by decide : char '%' ∉ handling.dropLast.dropLast)
    (vprintf_intText [] [] · (by exact_mod_cast hn)))

end Printing

section Entry

variable (handler cause : Word) (c : Cpu)

/-- `t0` keeps the cause, and both `t1` and `t2` get the address of the instruction that trapped. -/
structure HandlerEntered (handler cause : Word) (c c' : Cpu) : Prop where
  cause : c'.get (.t 0) = cause
  mtval : c'.get (.t 1) = c.pc
  mepc : c'.get (.t 2) = c.pc
  sp : c'.get .sp = c.csrs .sscratch - 96

def entrySaves : List Instr := List.flatten [
  [.csrr (.t 0) .mcause], swapStackPointers, [.addi .sp .sp (-96)], saves .sp Reg.s]

def entryJump (handler : Word) : List Instr :=
  [.addi (.t 3) .zero 0, .lui (.t 3) 0x80000, .slli (.t 3) (.t 3) 16, .la (.t 4) handler,
    .add (.t 3) (.t 3) (.t 4), .csrw .mepc (.t 3), .addi (.t 3) .zero 1, .slli (.t 3) (.t 3) 11,
    .csrr (.t 4) .mstatus, .or (.t 3) (.t 4) (.t 3), .csrw .mstatus (.t 3), .mret]

lemma jumpToMachineExceptionHandler_eq : jumpToMachineExceptionHandler handler =
    entrySaves ++ ([.csrr (.t 1) .mepc, .csrr (.t 2) .mepc] ++ entryJump handler) := rfl

lemma entrySaves_spec : (exec entrySaves c).get (.t 0) = c.csrs .mcause ∧
    (exec entrySaves c).csrs .mepc = c.csrs .mepc ∧
    (exec entrySaves c).get .sp = c.csrs .sscratch - 96 := by
  obtain ⟨m, hm⟩ := exec_saves .sp Reg.s
    (exec [.addi .sp .sp (-96)] (exec swapStackPointers (exec [.csrr (.t 0) .mcause] c)))
  simp only [entrySaves, List.flatten_cons, List.flatten_nil, List.append_nil, exec_append, hm]
  refine ⟨?_, ?_, ?_⟩
  · change (exec [.addi .sp .sp (-96)] (exec swapStackPointers (exec [.csrr (.t 0) .mcause] c))).get (.t 0) = _
    rw [exec_get (by simp [Instr.dest]), exec_get (by simp [swapStackPointers, Instr.dest])]
    exact get_set_self (by simp)
  · rfl
  · change (exec swapStackPointers (exec [.csrr (.t 0) .mcause] c)).get .sp + BitVec.ofInt 64 (-96) = _
    rw [get_swapStackPointers]
    change c.csrs .sscratch + BitVec.ofInt 64 (-96) = _
    bv_omega

lemma entryJump_get {r : Reg} (h₃ : r ≠ .t 3) (h₄ : r ≠ .t 4) : (exec (entryJump handler) c).get r = c.get r :=
  exec_get (by simp [entryJump, Instr.dest, h₃.symm, h₄.symm]) c

lemma readMepc_spec : (exec [.csrr (.t 1) .mepc, .csrr (.t 2) .mepc] c).get (.t 1) = c.csrs .mepc ∧
    (exec [.csrr (.t 1) .mepc, .csrr (.t 2) .mepc] c).get (.t 2) = c.csrs .mepc := by
  constructor <;> simp [step, get_set]

lemma handlerEntered :
    HandlerEntered handler cause c (exec (jumpToMachineExceptionHandler handler) (trap cause c)) := by
  obtain ⟨hcause, hmepc, hsp⟩ := entrySaves_spec (trap cause c)
  obtain ⟨hmtval', hmepc'⟩ := readMepc_spec (exec entrySaves (trap cause c))
  have hpc : (trap cause c).csrs .mepc = c.pc := by simp [trap]
  have hmcause : (trap cause c).csrs .mcause = cause := by simp [trap]
  have hscratch : (trap cause c).csrs .sscratch = c.csrs .sscratch := by simp [trap]
  rw [jumpToMachineExceptionHandler_eq, exec_append, exec_append]
  refine ⟨?_, ?_, ?_, ?_⟩
  · rw [entryJump_get _ _ (by simp) (by simp), exec_get (by simp [Instr.dest]), hcause, hmcause]
  · rw [entryJump_get _ _ (by simp) (by simp), hmtval', hmepc, hpc]
  · rw [entryJump_get _ _ (by simp) (by simp), hmepc', hmepc, hpc]
  · rw [entryJump_get _ _ (by simp) (by simp), exec_get (by simp [Instr.dest]), hsp, hscratch]

end Entry

lemma syscallParameters_trap (handler : Word) (c : Cpu) :
    syscallParameters (exec (jumpToMachineExceptionHandler handler) (trap 8 c)) = syscallParameters c := by
  have ha := get_a_jumpToMachineExceptionHandler c handler
  change ∀ i, (exec (jumpToMachineExceptionHandler handler) (trap 8 c)).get (.a i) = c.get (.a i) at ha
  simp only [syscallParameters, ha]

/-- Every trap of every program: an `ecall` is a system call with the registers of the program, which goes back to where
it came from. Anything else stops the kernel with one line, in which the address of a page fault is that of the
instruction and not that of the access. -/
theorem trap_handled (limit fuel : ℕ)
    (others : SyscallParameters → State Frames → Option (State Frames × List UInt8)) (logLevel : ℕ)
    (handler cause : Word) (c : Cpu) (s : State Frames) :
    machineExceptionHandler limit fuel others logLevel (exec (jumpToMachineExceptionHandler handler) (trap cause c)) s =
      if cause = 8 then
        (handleSyscall limit fuel others logLevel (syscallParameters c) s).map fun r => .returns r.1 c.pc r.2
      else some (.halts (if logLevel &&& LogLevel.bit .exception = 0 then [] else
        (LogLevel.tag .exception).map char ++ [char ' '] ++ faultText cause.toNat c.pc.toNat ++ [char '\n'])) := by
  have hin := handlerEntered handler cause c
  rw [machineExceptionHandler, hin.cause, hin.mtval, hin.mepc]
  by_cases hcause : cause = 8
  · subst hcause
    have height : (8 : Word).toNat = 0x8 := rfl
    rw [if_pos rfl, if_pos height, syscallParameters_trap]
    cases handleSyscall limit fuel others logLevel (syscallParameters c) s <;> rfl
  · have hnat : ¬ cause.toNat = 0x8 := fun hh => hcause (BitVec.eq_of_toNat_eq hh)
    rw [if_neg hcause, if_neg hnat]
    simp only [log_eq logLevel .exception (kernelVprintf_exceptionLine cause.toNat c.pc.isLt), Option.bind_eq_bind,
      Option.bind_some]

section Return

/-- The compiled handler calls `jump_back_to_userspace` with the address from `t2` and with a return value. -/
structure CallsJumpBack (h : CompiledHandler) (returnValue : Cpu → Word) : Prop where
  address : ∀ c, (h.run c).get (.a 0) = c.get (.t 2)
  value : ∀ c, (h.run c).get (.a 1) = returnValue c

def leaveSupervisor : List Instr :=
  [.addi .sp .sp 96, .addi (.a 0) .zero 1, .slli (.a 0) (.a 0) 8, .not (.a 0) (.a 0), .csrr (.a 1) .sstatus,
    .and (.a 0) (.a 1) (.a 0), .csrw .sstatus (.a 0)]

def resumeProgram : List Instr := [.addi (.t 0) (.t 0) 4, .csrw .sepc (.t 0), .add (.a 0) .zero (.a 3), .sret]

variable (c : Cpu)

lemma leaveSupervisor_spec : (exec leaveSupervisor c).get (.t 0) = c.get (.t 0) ∧
    (exec leaveSupervisor c).get (.a 3) = c.get (.a 3) ∧
    ((exec leaveSupervisor c).csrs .sstatus).getLsbD 8 = false := by
  refine ⟨exec_get (by simp [leaveSupervisor, Instr.dest]) c, exec_get (by simp [leaveSupervisor, Instr.dest]) c, ?_⟩
  simp [leaveSupervisor, step, get_set]

lemma swapStackPointers_frame : (exec swapStackPointers c).get (.t 0) = c.get (.t 0) ∧
    (exec swapStackPointers c).get (.a 3) = c.get (.a 3) ∧
    (exec swapStackPointers c).csrs .sstatus = c.csrs .sstatus :=
  ⟨exec_get (by simp [swapStackPointers, Instr.dest]) c, exec_get (by simp [swapStackPointers, Instr.dest]) c,
    exec_csrs (by simp [swapStackPointers, Instr.csrDest]) c⟩

lemma resumeProgram_spec : (exec resumeProgram c).pc = c.get (.t 0) + 4 ∧
    (exec resumeProgram c).get (.a 0) = c.get (.a 3) ∧ (exec resumeProgram c).get .sp = c.get .sp ∧
    (exec resumeProgram c).csrs .sstatus = c.csrs .sstatus := by
  refine ⟨?_, ?_, exec_get (by simp [resumeProgram, Instr.dest]) c,
    exec_csrs (by simp [resumeProgram, Instr.csrDest]) c⟩
  · simp [resumeProgram, step, get_set]
  · have hsret : ∀ c' : Cpu, (step c' .sret).get (.a 0) = c'.get (.a 0) := fun _ => rfl
    simp only [resumeProgram, exec_cons, exec_nil, hsret]
    simp [step, get_set]

lemma jumpBackToUserspace_eq : jumpBackToUserspace =
    [.add (.a 3) .zero (.a 1), .add (.t 0) .zero (.a 0)] ++ (restores .sp Reg.s ++
      (leaveSupervisor ++ (swapStackPointers ++ resumeProgram))) := rfl

lemma jumpBackToUserspace_resumes : (exec jumpBackToUserspace c).pc = c.get (.a 0) + 4 ∧
    (exec jumpBackToUserspace c).get (.a 0) = c.get (.a 1) ∧
    ((exec jumpBackToUserspace c).csrs .sstatus).getLsbD 8 = false := by
  have hfirst : (exec [.add (.a 3) .zero (.a 1), .add (.t 0) .zero (.a 0)] c).get (.t 0) = c.get (.a 0) ∧
      (exec [.add (.a 3) .zero (.a 1), .add (.t 0) .zero (.a 0)] c).get (.a 3) = c.get (.a 1) := by
    constructor <;> simp [step, get_set]
  rw [jumpBackToUserspace_eq, exec_append, exec_append, exec_append, exec_append]
  generalize exec [.add (.a 3) .zero (.a 1), .add (.t 0) .zero (.a 0)] c = c₁ at hfirst ⊢
  obtain ⟨c₂, hrestores, _, _, _, _, hrest⟩ := exec_restores c₁ (fun i => (by simp : Reg.s i ≠ .sp))
    (fun _ => by simp) (fun i j hij => by simpa using hij)
  rw [hrestores]
  obtain ⟨ht₃, ha₃, hspp⟩ := leaveSupervisor_spec c₂
  obtain ⟨ht₄, ha₄, hsstatus₄⟩ := swapStackPointers_frame (exec leaveSupervisor c₂)
  obtain ⟨hpc, ha, _, hsstatus⟩ := resumeProgram_spec (exec swapStackPointers (exec leaveSupervisor c₂))
  refine ⟨?_, ?_, ?_⟩
  · rw [hpc, ht₄, ht₃, hrest _ (fun i => by simp), hfirst.1]
  · rw [ha, ha₄, ha₃, hrest _ (fun i => by simp), hfirst.2]
  · rw [hsstatus, hsstatus₄, hspp]

end Return

/-- From every state of a program, and whatever its handler does to the saved registers: the system call comes back to
the program behind its `ecall`, in user mode, on the stack of the program and with the return value in `a0`. -/
theorem syscall_resumes (h : CompiledHandler) (returnValue : Cpu → Word) (hcalls : CallsJumpBack h returnValue)
    (c : Cpu) : (syscall h c).pc = c.pc + 4 ∧
      (syscall h c).get (.a 0) = returnValue (exec (jumpToMachineExceptionHandler h.address) (ecall c)) ∧
      (syscall h c).get .sp = c.get .sp ∧ ((syscall h c).csrs .sstatus).getLsbD 8 = false := by
  have hin : HandlerEntered h.address 8 c (exec (jumpToMachineExceptionHandler h.address) (ecall c)) :=
    handlerEntered h.address 8 c
  obtain ⟨hpc, ha, hspp⟩ :=
    jumpBackToUserspace_resumes (h.run (exec (jumpToMachineExceptionHandler h.address) (ecall c)))
  refine ⟨?_, ?_, (syscall_spec h c).1, hspp⟩
  · rw [syscall, hpc, hcalls.address, hin.mepc]
  · rw [syscall, ha, hcalls.value]

section Examples

def returningHandler : CompiledHandler where
  address := 0x80001000
  frame := 144
  frame_ne := by decide
  run := fun c => ((c.set .sp (c.get .sp - 144)).set (.a 0) (c.get (.t 2))).set (.a 1) 3
  sp := fun _ => by simp [get_set]
  sscratch := fun _ => rfl

lemma returningHandler_calls : CallsJumpBack returningHandler fun _ => 3 where
  address := fun _ => by simp [returningHandler, get_set]
  value := fun _ => by simp [returningHandler, get_set]

theorem syscall_resumes_small : ∃ c, Runs returningHandler beforeSwitch 0 c ∧
    (syscall returningHandler c).pc = 4 ∧ (syscall returningHandler c).get (.a 0) = 3 ∧
    (syscall returningHandler c).get .sp = 0x100FA0 := by
  obtain ⟨hpc, ha, hsp, _⟩ := syscall_resumes returningHandler _ returningHandler_calls
    (exec switchToProcess beforeSwitch)
  have hstart : (exec switchToProcess beforeSwitch).pc + 4 = 4 := by decide
  have hstack : (exec switchToProcess beforeSwitch).get .sp = 0x100FA0 := by decide
  exact ⟨_, .start, hpc.trans hstart, ha, hsp.trans hstack⟩

end Examples

end TetraOS.Console
