import TetraOS.Console.Traps
import TetraOS.Library.RegisterProgram
import TetraOS.Memory.BootEntry

/-! The modes of the processor between boot and the programs (kernel/boot.s, kernel/exception.s,
kernel/process/process.s, kernel/process/scheduler.cpp). All traps go to machine mode, as no code delegates any. -/

namespace TetraOS.Console

open Memory Processes Library.Riscv Library.Simulation Relation

def setSumBit : List Instr :=
  [.addi (.a 0) .zero 1, .slli (.a 0) (.a 0) 18, .csrr (.a 1) .sstatus, .or (.a 0) (.a 0) (.a 1),
    .csrw .sstatus (.a 0)]

def setSppZero : List Instr :=
  [.addi (.a 0) .zero 1, .slli (.a 0) (.a 0) 8, .not (.a 0) (.a 0), .csrr (.a 1) .sstatus, .and (.a 0) (.a 1) (.a 0),
    .csrw .sstatus (.a 0)]

section Hart

def spp (sstatus : Word) : Mode := if sstatus.getLsbD 8 then .supervisor else .user

/-- The bit SUM of `sstatus`: with it, supervisor mode has access to the pages of the user. -/
def sum (sstatus : Word) : Bool := sstatus.getLsbD 18

def mppBits : Mode → Word
  | .user => 0
  | .supervisor => 0x800
  | .reserved => 0x1000
  | .machine => 0x1800

def withMpp (mode : Mode) (mstatus : Word) : Word := (mstatus &&& ~~~0x1800) ||| mppBits mode

variable (h : Hart)

/-- A trap keeps the mode it comes from in MPP. -/
def trapHart (cause : Word) : Hart :=
  { h with cpu := (trap cause h.cpu).setCsr .mstatus (withMpp h.mode (h.cpu.csrs .mstatus)), mode := .machine }

def runMret (code : List Instr) : Hart :=
  let c := exec code h.cpu
  { h with cpu := c.setCsr .mstatus (withMpp .user (c.csrs .mstatus)), mode := mpp (c.csrs .mstatus) }

def runSret (code : List Instr) : Hart :=
  let c := exec code h.cpu
  { h with cpu := c.setCsr .sstatus (c.csrs .sstatus &&& ~~~0x100), mode := spp (c.csrs .sstatus) }

end Hart

/-- What the processor executes: the kernel before it loads a program, while it does and after it has, the program, the
entry of a trap and the handler behind it. -/
inductive Place where
  | booted | loading | loaded | program
  | entry (cause : Word)
  | handler (cause : Word)

namespace Place

def mode : Place → Mode
  | program => .user
  | entry _ => .machine
  | _ => .supervisor

/-- The loader and the system calls copy from and to the pages of a program. -/
def TouchesUser (p : Place) : Prop := p = loading ∨ p = handler 8

end Place

/-- The compiled code that runs at a place keeps the control registers. An `ecall` has the cause 8 in user mode only.
The entry of a trap is assumed not to trap itself, as its stores are assumed to reach the stack of the kernel. -/
inductive ModeStep (address : Word) : Place × Hart → Place × Hart → Prop
  | code {p h h'} : h'.cpu.csrs = h.cpu.csrs → h'.mode = h.mode → ModeStep address (p, h) (p, h')
  | setSumBit {p h} : p = .booted ∨ p = .loaded →
      ModeStep address (p, h) (.loading, { h with cpu := exec setSumBit h.cpu })
  | setSppZero {h} : ModeStep address (.loading, h) (.loaded, { h with cpu := exec setSppZero h.cpu })
  | switch {h} : ModeStep address (.loaded, h) (.program, runSret h switchToProcess)
  | trap {p h cause} : (∀ c, p ≠ .entry c) → (cause = 8 → h.mode = .user) →
      ModeStep address (p, h) (.entry cause, trapHart h cause)
  | enter {h cause} : ModeStep address (.entry cause, h)
      (.handler cause, runMret h (jumpToMachineExceptionHandler address))
  | resume {h} : ModeStep address (.handler 8, h) (.program, runSret h jumpBackToUserspace)

def ModeOk : Place × Hart → Prop
  | (.booted, h) => h.mode = .supervisor
  | (.loading, h) => h.mode = .supervisor ∧ sum (h.cpu.csrs .sstatus) = true
  | (.loaded, h) => h.mode = .supervisor ∧ sum (h.cpu.csrs .sstatus) = true ∧ spp (h.cpu.csrs .sstatus) = .user
  | (.program, h) => h.mode = .user ∧ sum (h.cpu.csrs .sstatus) = true
  | (.entry cause, h) => h.mode = .machine ∧ (h.cpu.csrs .mstatus).getLsbD 12 = false ∧
      (cause = 8 → sum (h.cpu.csrs .sstatus) = true)
  | (.handler cause, h) => h.mode = .supervisor ∧ (cause = 8 → sum (h.cpu.csrs .sstatus) = true)

section Code

variable (c : Cpu)

lemma sum_setSumBit : sum ((exec setSumBit c).csrs .sstatus) = true := by
  simp [sum, setSumBit, step, get_set]

lemma setSppZero_spec : spp ((exec setSppZero c).csrs .sstatus) = .user ∧
    sum ((exec setSppZero c).csrs .sstatus) = sum (c.csrs .sstatus) := by
  constructor <;> simp [spp, sum, setSppZero, step, get_set]

lemma sstatus_switchToProcess : (exec switchToProcess c).csrs .sstatus = c.csrs .sstatus :=
  exec_csrs (by simp [switchToProcess, Instr.csrDest]) c

lemma csrs_entrySaves {k : Csr} (hk : k ≠ .sscratch) : (exec entrySaves c).csrs k = c.csrs k := by
  refine exec_csrs (fun i hi => ?_) c
  simp only [entrySaves, swapStackPointers, saves, List.flatten_cons, List.flatten_nil, List.mem_append, List.mem_cons,
    List.mem_map, List.not_mem_nil, or_false] at hi
  rcases hi with rfl | (rfl | rfl | rfl) | rfl | ⟨j, _, rfl⟩
  · simp [Instr.csrDest]
  · simp [Instr.csrDest]
  · simp [Instr.csrDest]
  · simpa [Instr.csrDest] using hk.symm
  · simp [Instr.csrDest]
  · simp [Instr.csrDest]

lemma sstatus_entry (address : Word) :
    (exec (jumpToMachineExceptionHandler address) c).csrs .sstatus = c.csrs .sstatus := by
  rw [jumpToMachineExceptionHandler_eq, exec_append, exec_append, exec_csrs (by simp [entryJump, Instr.csrDest]),
    exec_csrs (by simp [Instr.csrDest]), csrs_entrySaves c (by simp)]

def entryAddress (address : Word) : List Instr :=
  [.addi (.t 3) .zero 0, .lui (.t 3) 0x80000, .slli (.t 3) (.t 3) 16, .la (.t 4) address, .add (.t 3) (.t 3) (.t 4),
    .csrw .mepc (.t 3)]

def setMpp : List Instr :=
  [.addi (.t 3) .zero 1, .slli (.t 3) (.t 3) 11, .csrr (.t 4) .mstatus, .or (.t 3) (.t 4) (.t 3),
    .csrw .mstatus (.t 3), .mret]

lemma entryJump_eq (address : Word) : entryJump address = entryAddress address ++ setMpp := rfl

/-- The code sets the lower bit of MPP, and relies on the upper one. -/
lemma mpp_entry (address : Word) (h : (c.csrs .mstatus).getLsbD 12 = false) :
    mpp ((exec (jumpToMachineExceptionHandler address) c).csrs .mstatus) = .supervisor := by
  have hset : ∀ c : Cpu, ((exec setMpp c).csrs .mstatus).getLsbD 11 = true ∧
      ((exec setMpp c).csrs .mstatus).getLsbD 12 = (c.csrs .mstatus).getLsbD 12 := fun c => by
    constructor <;> simp [setMpp, step, get_set]
  rw [jumpToMachineExceptionHandler_eq, entryJump_eq, exec_append, exec_append, exec_append, mpp, (hset _).1,
    (hset _).2, exec_csrs (by simp [entryAddress, Instr.csrDest]), exec_csrs (by simp [Instr.csrDest]),
    csrs_entrySaves c (by simp), h]

lemma sum_jumpBackToUserspace : sum ((exec jumpBackToUserspace c).csrs .sstatus) = sum (c.csrs .sstatus) := by
  have hleave : ∀ c : Cpu, sum ((exec leaveSupervisor c).csrs .sstatus) = sum (c.csrs .sstatus) := fun c => by
    simp [sum, leaveSupervisor, step, get_set]
  rw [jumpBackToUserspace_eq, exec_append, exec_append, exec_append, exec_append]
  generalize hc : exec [.add (.a 3) .zero (.a 1), .add (.t 0) .zero (.a 0)] c = c₁
  have hfirst : c₁.csrs .sstatus = c.csrs .sstatus := by
    rw [← hc]
    exact exec_csrs (by simp [Instr.csrDest]) c
  obtain ⟨c₂, hrestores, hcsrs, _⟩ := exec_restores c₁ (fun i => (by simp : Reg.s i ≠ .sp))
    (fun _ => by simp) (fun i j hij => by simpa using hij)
  rw [hrestores, (resumeProgram_spec _).2.2.2, (swapStackPointers_frame _).2.2, hleave, hcsrs, hfirst]

end Code

section Modes

variable {mode : Mode} {w : Word}

lemma withMpp_upper (hmode : mode = .user ∨ mode = .supervisor) : (withMpp mode w).getLsbD 12 = false := by
  rcases hmode with rfl | rfl <;> simp [withMpp, mppBits]

lemma spp_of_clear (h : w.getLsbD 8 = false) : spp w = .user := if_neg (by rw [h]; exact Bool.false_ne_true)

lemma csrs_runMret {k : Csr} (hk : k ≠ .mstatus) (h : Hart) (code : List Instr) :
    (runMret h code).cpu.csrs k = (exec code h.cpu).csrs k := Function.update_of_ne hk _ _

lemma sum_runSret (h : Hart) (code : List Instr) :
    sum ((runSret h code).cpu.csrs .sstatus) = sum ((exec code h.cpu).csrs .sstatus) := by
  simp [runSret, sum]

end Modes

lemma ModeOk.trap {p : Place} {h : Hart} {cause : Word} (hok : ModeOk (p, h)) (hentry : ∀ c, p ≠ .entry c)
    (hcause : cause = 8 → h.mode = .user) : ModeOk (.entry cause, trapHart h cause) := by
  have hsstatus : (trapHart h cause).cpu.csrs .sstatus = h.cpu.csrs .sstatus := by simp [trapHart, Console.trap]
  have hmode : h.mode = .user ∨ h.mode = .supervisor := by
    cases p with
    | program => exact Or.inl hok.1
    | entry c => exact absurd rfl (hentry c)
    | booted => exact Or.inr hok
    | loading | loaded | handler => exact Or.inr hok.1
  refine ⟨rfl, ?_, fun h8 => ?_⟩
  · have hmstatus : (trapHart h cause).cpu.csrs .mstatus = withMpp h.mode (h.cpu.csrs .mstatus) := by
      simp [trapHart]
    rw [hmstatus, withMpp_upper hmode]
  · rw [hsstatus]
    cases p with
    | program => exact hok.2
    | entry c => exact absurd rfl (hentry c)
    | booted => exact absurd (hok.symm.trans (hcause h8)) (by simp)
    | loading | loaded | handler => exact absurd (hok.1.symm.trans (hcause h8)) (by simp)

lemma modeStep_ok (address : Word) : Invariant (ModeStep address) ModeOk := by
  intro s s' hok hstep
  cases hstep with
  | @code p h h' hcsrs hmode =>
    cases p <;> simpa only [ModeOk, hcsrs, hmode] using hok
  | setSumBit hp =>
    refine ⟨?_, sum_setSumBit _⟩
    rcases hp with rfl | rfl
    · exact hok
    · exact hok.1
  | @setSppZero h =>
    obtain ⟨hspp, hsum⟩ := setSppZero_spec h.cpu
    exact ⟨hok.1, hsum.trans hok.2, hspp⟩
  | @switch h =>
    have hsstatus := sstatus_switchToProcess h.cpu
    refine ⟨(congrArg spp hsstatus).trans hok.2.2, ?_⟩
    rw [sum_runSret, hsstatus, hok.2.1]
  | trap hentry hcause => exact hok.trap hentry hcause
  | @enter h cause =>
    refine ⟨mpp_entry h.cpu address hok.2.1, fun h8 => ?_⟩
    rw [csrs_runMret (by simp), sstatus_entry, hok.2.2 h8]
  | @resume h =>
    refine ⟨spp_of_clear (jumpBackToUserspace_resumes h.cpu).2.2, ?_⟩
    rw [sum_runSret, sum_jumpBackToUserspace, hok.2 rfl]

/-- From the boot on, over any number of programs, traps and system calls: programs run in user mode, the kernel runs in
supervisor mode, only the entry of a trap runs in machine mode, and wherever the kernel copies from or to the pages of a
program it has access to them. -/
theorem modes_match (address : Word) (h₀ : Hart) (hboot : h₀.mode = .supervisor) (p : Place) (h : Hart)
    (hrun : ReflTransGen (ModeStep address) (.booted, h₀) (p, h)) :
    h.mode = p.mode ∧ (p.TouchesUser → sum (h.cpu.csrs .sstatus) = true) := by
  have hstart : ModeOk (.booted, h₀) := hboot
  have hok : ModeOk (p, h) := (modeStep_ok address).run hstart hrun
  refine ⟨?_, ?_⟩
  · cases p with
    | booted => exact hok
    | loading | loaded | program | entry | handler => exact hok.1
  · rintro (rfl | rfl)
    · exact hok.2
    · exact hok.2 rfl

section Examples

def bootedHart : Hart := ⟨beforeSwitch, .supervisor, 0x1F, BitVec.allOnes 64⟩

theorem modes_match_syscall : ∃ h, ReflTransGen (ModeStep 0x80001000) (.booted, bootedHart) (.handler 8, h) ∧
    h.mode = .supervisor ∧ sum (h.cpu.csrs .sstatus) = true := by
  have hload := ReflTransGen.single (.setSumBit (Or.inl rfl) : ModeStep 0x80001000 (.booted, bootedHart) _)
  have hprogram := (hload.tail .setSppZero).tail .switch
  have huser := (modes_match _ _ rfl _ _ hprogram).1
  have hcall := (hprogram.tail (.trap (fun _ => by simp) fun _ : (8 : Word) = 8 => huser)).tail .enter
  obtain ⟨hmode, hsum⟩ := modes_match _ _ rfl _ _ hcall
  exact ⟨_, hcall, hmode, hsum (Or.inr rfl)⟩

end Examples

end TetraOS.Console
