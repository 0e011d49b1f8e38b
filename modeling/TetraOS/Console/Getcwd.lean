import TetraOS.Console.Traps
import TetraOS.Console.UserPrintf
import TetraOS.Processes.CurrentDirectory
import TetraOS.Processes.Dispatch

/-! `getcwd` of a program, from the library (tlibc/syscalls/getcwd.c) over the scheduler to the path of the process
(kernel/syscalls/syscall.cpp, kernel/process/process.cpp), and the `pwd` of the shell (userspace/shell/builtins.c). -/

namespace TetraOS.Console

open Memory Processes Library.ByteMemory Library.Riscv PhysicalAllocator Relation
open Libc (Width)

/-- `getcwd` of the library up to its `ecall`. -/
def tlibcGetcwd (buf size : Word) (c : Cpu) : Cpu :=
  exec (tlibcSyscall 79) (((c.set (.a 0) 79).set (.a 1) buf).set (.a 2) size)

def gotGetcwd : List UInt8 := ['g', 'o', 't', ' ', 'g', 'e', 't', 'c', 'w', 'd', ' ', 's', 'y', 's', 'c', 'a', 'l', 'l',
  '\n'].map char

def copying : List UInt8 := ['c', 'o', 'p', 'y', 'i', 'n', 'g', '\n'].map char

def sizeText : List UInt8 := ['s', 'i', 'z', 'e', ':', ' '].map char

section Kernel

variable {α : Type} (fuel scheduler : ℕ)

/-- Case 79 of `handle_syscall`, where `scheduler` is the instance, with what it prints. -/
def handleGetcwd (params : SyscallParameters) (s : State α) : Option (State α × List UInt8) := do
  let (_, start) ← kernelVprintf gotGetcwd []
  let (_, a) ← kernelVprintf [char 'a', char '\n'] []
  let process ← Scheduler.currentProcess s scheduler
  let (_, b) ← kernelVprintf [char 'b', char '\n'] []
  let path ← Process.getCwd s process
  let (_, c) ← kernelVprintf [char 'c', char '\n'] []
  let (_, copy) ← kernelVprintf copying []
  let (size, s) ← copyInto fuel s path params.a0
  let (_, line) ← kernelVprintf (sizeText ++ [char '%', char 'i', char '\n']) [.int (BitVec.ofNat 32 size).toInt]
  let (_, d) ← kernelVprintf [char 'd', char '\n'] []
  some (s, start ++ a ++ b ++ c ++ copy ++ line ++ d)

/-- The cases other than 1 and 79 are a parameter. -/
def getcwdOr (others : SyscallParameters → State α → Option (State α × List UInt8)) (params : SyscallParameters)
    (s : State α) : Option (State α × List UInt8) :=
  if params.a7 = 79 then handleGetcwd fuel scheduler params s else others params s

end Kernel

def getcwdText : List UInt8 := gotGetcwd ++ [char 'a', char '\n'] ++ [char 'b', char '\n'] ++ [char 'c', char '\n'] ++
  copying ++ (sizeText ++ [char '1', char '2', char '\n']) ++ [char 'd', char '\n']

lemma syscallParameters_getcwd (address buf size : Word) (c : Cpu) :
    syscallParameters (exec (jumpToMachineExceptionHandler address) (ecall (tlibcGetcwd buf size c))) =
      ⟨buf.toNat, size.toNat, (c.get (.a 3)).toNat, 79⟩ := by
  simp only [syscallParameters, get_a_jumpToMachineExceptionHandler, tlibcGetcwd, tlibcSyscall, exec_cons, exec_nil,
    step, get_set]
  simp

lemma kernelVprintf_size : kernelVprintf (sizeText ++ [char '%', char 'i', char '\n'])
    [.int (BitVec.ofNat 32 12).toInt] = some ([], sizeText ++ [char '1', char '2', char '\n']) :=
  kernelVprintf_append (by decide) fun out => by
    rw [show (BitVec.ofNat 32 12).toInt = ((12 : ℕ) : ℤ) by decide, vprintf_int _ _ _ _ (Or.inr rfl),
      printInt_eq putChar (by norm_num), emitAll_putChar, Option.bind_some, vprintf_plain _ _ _ _ (by decide), putChar,
      Option.bind_some, vprintf, List.append_assoc]
    rfl

/-- The working directory is in the buffer of the program, without a zero behind it, and nothing else has changed for
the program or the scheduler. -/
structure CwdCopied (img : Image) (m : Memory) (home : ℕ) (blocks own : List Block) (this : ℕ) (processes : List ℕ)
    (p buffer : ℕ) (s s' : State Frames) : Prop where
  run : SchedulerRun img m home s' blocks own this processes
  current : Scheduler.currentProcess s' this = some p
  left : framesLeft img s.mem ≤ framesLeft img s'.mem
  characters : ∀ i (hi : i < foundPath.length), loadByte s' (buffer + i) = some foundPath[i]
  others : ∀ x < 2 ^ 47, x < buffer ∨ buffer + foundPath.length ≤ x → loadByte s' x = loadByte s x

section Call

variable {img : Image} {m : Memory} {home : ℕ} {s : State Frames} {blocks own : List Block} {this p : ℕ}
    {processes : List ℕ}

def callGetcwd (img : Image) (fuel scheduler : ℕ) (others : Others) (logLevel : ℕ) (handler buf size : Word) (c : Cpu)
    (s : State Frames) : Option (State Frames × List UInt8) :=
  handleSyscall (reserved img) fuel (getcwdOr fuel scheduler others) logLevel (syscallParameters
    (exec (jumpToMachineExceptionHandler handler) (ecall (tlibcGetcwd buf size c)))) s

lemma callGetcwd_run (hready : Ready img m) (hrun : SchedulerRun img m home s blocks own this processes)
    (hp : p ∈ processes) (hcurrent : Scheduler.currentProcess s this = some p) {fuel : ℕ} (hfuel : 12 < fuel)
    (others : Others) (logLevel : ℕ) (handler buf size : Word) (c : Cpu) (hbuf : buf.toNat + 12 ≤ 2 ^ 47)
    (hmapped : ∀ i < 12, (loadByte s (buf.toNat + i)).isSome) : ∃ s',
    callGetcwd img fuel this others logLevel handler buf size c s =
        some (s', syscallMessage logLevel 79 ++ getcwdText) ∧
      CwdCopied img m home blocks own this processes p buf.toNat s s' := by
  obtain ⟨items, hs⟩ := hrun.scheduled hready
  have hhome := hrun.atHome hready p hp
  obtain ⟨s', hcopy, hsteps, hleft, hlower⟩ := hhome.copyInto hready hs.run
    (fun b hb => hs.owned b (hrun.owned p hp b hb)) own hfuel hbuf hmapped
  have hlength : foundPath.length = 12 := rfl
  refine ⟨s', ?_, hrun.othersRun hsteps, (hs.current_others hready hsteps).trans hcurrent, hleft, fun i hi => ?_,
    fun x hx hout => ?_⟩
  · have hplain : ∀ text : List UInt8, char '%' ∉ text → kernelVprintf text [] = some ([], text) :=
      fun _ => kernelVprintf_plain
    rw [callGetcwd, syscallParameters_getcwd, handleSyscall]
    dsimp only
    rw [log_handling logLevel (by norm_num), Option.bind_eq_bind, Option.bind_some, if_neg (by decide), getcwdOr,
      if_pos rfl, handleGetcwd]
    simp only [hplain gotGetcwd (by decide), hplain copying (by decide), hplain [char 'a', char '\n'] (by decide),
      hplain [char 'b', char '\n'] (by decide), hplain [char 'c', char '\n'] (by decide),
      hplain [char 'd', char '\n'] (by decide), hcurrent, hhome.path, hcopy, kernelVprintf_size,
      Option.bind_eq_bind, Option.bind_some, getcwdText]
  · have hi' : i < 12 := hi
    rw [hlower _ (by omega), if_pos (by omega), Nat.add_sub_cancel_left, List.getElem?_eq_getElem hi]
  · rw [hlength] at hout
    rw [hlower x hx, if_neg (by omega)]

end Call

/-- In every run of the scheduler, `getcwd` of the process that runs copies twelve characters to its buffer, of whatever
size: its working directory, and the low byte of the size of its item in the list of the scheduler. No zero follows. -/
theorem getcwd_copies (img : Image) (m : Memory) (hready : Ready img m) (home : ℕ) (s : State Frames)
    (blocks own : List Block) (this : ℕ) (processes : List ℕ)
    (hrun : SchedulerRun img m home s blocks own this processes) (p : ℕ) (hp : p ∈ processes)
    (hcurrent : Scheduler.currentProcess s this = some p) (fuel : ℕ) (hfuel : 12 < fuel) (others : Others)
    (logLevel : ℕ) (handler buf size : Word) (c : Cpu) (hbuf : buf.toNat + 12 ≤ 2 ^ 47)
    (hmapped : ∀ i < 12, (loadByte s (buf.toNat + i)).isSome) : ∃ s',
    callGetcwd img fuel this others logLevel handler buf size c s =
        some (s', syscallMessage logLevel 79 ++ getcwdText) ∧
      CwdCopied img m home blocks own this processes p buf.toNat s s' :=
  callGetcwd_run hready hrun hp hcurrent hfuel others logLevel handler buf size c hbuf hmapped

/-- `pwd` of the shell, with the block that it has from `malloc`. The registers are those of `c` when it calls `getcwd`,
and those of `c'` when `printf` calls `write`. -/
def pwd (img : Image) (fuel scheduler : ℕ) (others : Others) (logLevel : ℕ) (handler buffer printfBuffer : Word)
    (c c' : Cpu) (s : State Frames) : Option (State Frames × List UInt8) := do
  let (s, out) ← callGetcwd img fuel scheduler others logLevel handler buffer 40 c s
  let (s, rest) ← userPrintf img (getcwdOr fuel scheduler others) fuel logLevel handler printfBuffer c'
    [char '%', char 's'] [.pointer fun i => loadByte s (address buffer.toNat i)] s
  some (s, out ++ rest)

/-- What the block of `malloc` held before, up to its next zero, is printed behind the working directory. -/
theorem pwd_prints (img : Image) (m : Memory) (hready : Ready img m) (home : ℕ) (s : State Frames)
    (blocks own : List Block) (this : ℕ) (processes : List ℕ)
    (hrun : SchedulerRun img m home s blocks own this processes) (p : ℕ) (hp : p ∈ processes)
    (hcurrent : Scheduler.currentProcess s this = some p) (fuel : ℕ) (hfuel : 12 < fuel) (others : Others)
    (logLevel : ℕ) (hoff : AllocatorsOff logLevel) (handler buffer printfBuffer : Word) (c c' : Cpu)
    (hleft : 8 ≤ framesLeft img s.mem)
    (hbuffer : buffer.toNat + 40 ≤ 2 ^ 47) (hmapped : ∀ i < 40, (loadByte s (buffer.toNat + i)).isSome)
    (behind : List UInt8) (hlen : behind.length < 28) (hnonzero : ∀ c ∈ behind, c ≠ 0)
    (hbehind : ∀ i (hi : i < behind.length), loadByte s (buffer.toNat + 12 + i) = some behind[i])
    (hend : loadByte s (buffer.toNat + 12 + behind.length) = some 0) (hprintf : printfBuffer.toNat + 200 ≤ 2 ^ 47)
    (hmapped' : ∀ i < 200, (loadByte s (printfBuffer.toNat + i)).isSome)
    (hapart : buffer.toNat + 40 ≤ printfBuffer.toNat ∨ printfBuffer.toNat + 200 ≤ buffer.toNat) : ∃ s' block,
    pwd img fuel this others logLevel handler buffer printfBuffer c c' s =
        some (s', syscallMessage logLevel 79 ++ getcwdText ++ (message logLevel ++ (foundPath ++ behind))) ∧
      KernelRun img m s' (block :: blocks) ∧
      ∀ i (hi : i < (foundPath ++ behind).length), loadByte s' (buffer.toNat + i) = some (foundPath ++ behind)[i] := by
  obtain ⟨s₁, hcall, hcwd⟩ := callGetcwd_run hready hrun hp hcurrent hfuel others logLevel handler buffer 40 c
    (by omega) fun i hi => hmapped i (by omega)
  have hlength : foundPath.length = 12 := rfl
  have hothers := hcwd.others
  rw [hlength] at hothers
  obtain ⟨items, hs₁⟩ := hcwd.run.scheduled hready
  have htext : ∀ i (hi : i < (foundPath ++ behind).length),
      loadByte s₁ (buffer.toNat + i) = some (foundPath ++ behind)[i] := by
    intro i hi
    rw [List.length_append, hlength] at hi
    rw [List.getElem_append]
    split_ifs with hfound
    · exact hcwd.characters i hfound
    · rw [hlength] at hfound
      have hplace : buffer.toNat + i = buffer.toNat + 12 + (i - 12) := by omega
      rw [hothers _ (by omega) (by omega), hplace]
      exact hbehind (i - 12) (by omega)
  have hzero : loadByte s₁ (buffer.toNat + (foundPath ++ behind).length) = some 0 := by
    rw [List.length_append, hlength, ← Nat.add_assoc, hothers _ (by omega) (by omega), hend]
  have hplace : ∀ i < 40, address buffer.toNat i = buffer.toNat + i := fun i hi => Nat.mod_eq_of_lt (by omega)
  have hall : ∀ c ∈ foundPath ++ behind, c ≠ 0 := by
    intro c hc
    rcases List.mem_append.mp hc with hc | hc
    · exact foundPath_nonzero c hc
    · exact hnonzero c hc
  have hshort : (foundPath ++ behind).length < 40 := by
    rw [List.length_append, hlength]
    omega
  have hchars : ∀ i (hi : i < (foundPath ++ behind).length),
      loadByte s₁ (address buffer.toNat i) = some (foundPath ++ behind)[i] := fun i hi => by
    rw [hplace i (by omega), htext i hi]
  have hzero' : loadByte s₁ (address buffer.toNat (foundPath ++ behind).length) = some 0 := by
    rw [hplace _ hshort, hzero]
  have hwidth : Width [char '%', char 's'] [.pointer fun i => loadByte s₁ (address buffer.toNat i)]
      ((foundPath ++ behind).length + 0) := .string _ _ hchars hall hzero' (.nil [])
  obtain ⟨s₂, block, bytes, rest, hbytes, hprint, hrun₂, -, hsame, -⟩ := userPrintf_run hready hs₁.run
    (getcwdOr fuel this others) handler printfBuffer c' hoff hwidth (by omega) hprintf
    (fun i hi => by rw [hothers _ (by omega) (by omega)]; exact hmapped' i hi) (by omega : 2 < fuel)
    (hleft.trans hcwd.left)
  rw [kernelVprintf_string hchars hzero' (by rw [intMax]; omega), untilZero_eq_self_iff.mpr hall, Option.some.injEq,
    Prod.mk.injEq] at hbytes
  obtain ⟨-, rfl⟩ := hbytes
  rw [untilZero_eq_self_iff.mpr hall] at hprint
  refine ⟨s₂, block, ?_, hrun₂, fun i hi => ?_⟩
  · rw [pwd, hcall, Option.bind_eq_bind, Option.bind_some]
    dsimp only
    rw [hprint]
    rfl
  · rw [hsame _ (by omega) (by omega), htext i hi]

section Examples

lemma running_page : ∃ s blocks own this p,
    SchedulerRun megabyteImage (fun _ => 0) 0x10000 s blocks own this [p] ∧
      Scheduler.currentProcess s this = some p ∧ 30000 ≤ framesLeft megabyteImage s.mem ∧
      ∀ i < 4096, loadByte s (0x20000 + i) = some 0 := by
  obtain ⟨s, blocks, own, this, p, _, hlaunch, _, hleft, _⟩ := launchRun_first smallLaunch
  obtain ⟨items, hl⟩ := hlaunch.launched megabyteImage_ready
  obtain ⟨s₁, hr, hcurrent⟩ := hl.runNextProcess megabyteImage_ready 0
  have hrun₁ := SchedulerRun.dispatched hlaunch.schedulerRun hr
  have hleft₁ := hl.scheduled.dispatched_left megabyteImage_ready hr
  obtain ⟨items₁, hs₁⟩ := hrun₁.scheduled megabyteImage_ready
  have hheap := (KernelInv.run megabyteImage_ready hs₁.run).kernel
  obtain ⟨s₂, hs₂, he⟩ := mapFrame_effect hheap (by decide : 0x20000 < 2 ^ 47) (by rw [source_left]; omega)
  have hleft₂ := he.left
  rw [source_left, source_left] at hleft₂
  have hstep : ReflTransGen (OthersStep megabyteImage own) (s₁, blocks) (s₂, blocks) :=
    ReflTransGen.single (.mapFrame (by decide) hs₂)
  refine ⟨s₂, blocks, own, this, p, hrun₁.othersRun hstep, ?_, by omega, fun i hi => ?_⟩
  · exact (hs₁.current_others megabyteImage_ready hstep).trans hcurrent
  · rw [he.lower _ (by omega), Space.mapZero, if_pos (by omega)]

theorem getcwd_copies_home : ∃ s blocks own this p s',
    SchedulerRun megabyteImage (fun _ => 0) 0x10000 s blocks own this [p] ∧
    callGetcwd megabyteImage 13 this (fun _ _ => none) 0 0x80001000 0x20000 1 beforeSwitch s = some (s', getcwdText) ∧
    loadByte s' 0x2000B = some 24 := by
  obtain ⟨s, blocks, own, this, p, hrun, hcurrent, _, hpage⟩ := running_page
  obtain ⟨s', hcall, hcwd⟩ := getcwd_copies megabyteImage _ megabyteImage_ready 0x10000 s blocks own this [p] hrun p
    (List.mem_singleton_self p) hcurrent 13 (by decide) (fun _ _ => none) 0 0x80001000 0x20000 1 beforeSwitch
    (by decide) fun i hi => by
      rw [show (0x20000 : Word).toNat = 0x20000 by rfl, hpage i (by omega)]
      rfl
  exact ⟨s, blocks, own, this, p, s', hrun, hcall, hcwd.characters 11 (by decide)⟩

theorem pwd_prints_home : ∃ s blocks own this p s',
    SchedulerRun megabyteImage (fun _ => 0) 0x10000 s blocks own this [p] ∧
    pwd megabyteImage 13 this (fun _ _ => none) 0 0x80001000 0x20000 0x20100 beforeSwitch beforeSwitch s =
      some (s', getcwdText ++ foundPath) := by
  obtain ⟨s, blocks, own, this, p, hrun, hcurrent, hleft, hpage⟩ := running_page
  have hclear : ∀ i < 4096, (loadByte s (0x20000 + i)).isSome := fun i hi => by
    rw [hpage i hi]
    rfl
  have hbuffer : (0x20000 : Word).toNat = 0x20000 := rfl
  have hprintf : (0x20100 : Word).toNat = 0x20000 + 0x100 := rfl
  obtain ⟨s', block, hpwd, -⟩ := pwd_prints megabyteImage _ megabyteImage_ready 0x10000 s blocks own this [p] hrun p
    (List.mem_singleton_self p) hcurrent 13 (by decide) (fun _ _ => none) 0 (by decide) 0x80001000 0x20000 0x20100
    beforeSwitch beforeSwitch (by omega) (by decide) (fun i hi => by rw [hbuffer]; exact hclear i (by omega)) []
    (by decide) (by simp) (fun i hi => absurd hi (Nat.not_lt_zero i))
    (by rw [hbuffer, Nat.add_assoc]; exact hpage 12 (by omega))
    (by decide) (fun i hi => by rw [hprintf, Nat.add_assoc]; exact hclear _ (by omega)) (by decide)
  exact ⟨s, blocks, own, this, p, s', hrun, hpwd⟩

end Examples

end TetraOS.Console
