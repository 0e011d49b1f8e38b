import TetraOS.Console.LineInput
import TetraOS.Libc.PrintfBuffer
import TetraOS.Processes.WorkingDirectory

/-! `printf` of a program, from its format to the console (tlibc/printf.c, tlibc/syscalls/write.c,
kernel/syscalls/syscall.cpp). The characters go through the page tables into the buffer of the library, and from there
through a block of the kernel. -/

namespace TetraOS.Console

open Memory Processes Library.ByteMemory Library.BumpBlocks Library.Riscv PhysicalAllocator Relation
open Libc (Width Puts)

abbrev Others := SyscallParameters → State Frames → Option (State Frames × List UInt8)

/-- `buffer[curr] = c` and the step to the next place, in a page of the program. -/
def putUser (buffer : ℕ) (out : State Frames × ℕ) (c : UInt8) : Option (State Frames × ℕ) := do
  let s ← storeByte out.1 (address buffer out.2) c
  some (s, out.2 + 1)

section Calls

variable (img : Image) (others : Others) (fuel logLevel : ℕ) (handler buffer : Word) (c : Cpu)

/-- `printf` of the library, where the registers are those of `c` when it calls `write`. -/
def userPrintf (fmt : List UInt8) (args : List Arg) (s : State Frames) : Option (State Frames × List UInt8) := do
  let (_, s, curr) ← vprintf (putUser buffer.toNat) fmt args (s, 0)
  handleSyscall (reserved img) fuel others logLevel (syscallParameters
    (exec (jumpToMachineExceptionHandler handler) (ecall (tlibcWrite 1 buffer (BitVec.ofNat 64 curr) c)))) s

def userPrintfs : List (List UInt8 × List Arg) → State Frames → Option (State Frames × List UInt8)
  | [], s => some (s, [])
  | (fmt, args) :: calls, s => do
    let (s, out) ← userPrintf img others fuel logLevel handler buffer c fmt args s
    let (s, rest) ← userPrintfs calls s
    some (s, out ++ rest)

end Calls

section Buffer

variable {img : Image} {m : Memory} {s : State Frames} {blocks : List Block} {buffer : ℕ} (hready : Ready img m)
include hready

structure Buffered (img : Image) (m : Memory) (blocks : List Block) (buffer curr : ℕ) (bytes : List UInt8)
    (s s' : State Frames) : Prop where
  run : KernelRun img m s' blocks
  left : framesLeft img s'.mem = framesLeft img s.mem
  stored : ∀ i (hi : i < bytes.length), loadByte s' (buffer + curr + i) = some bytes[i]
  others : ∀ x < 2 ^ 47, x < buffer + curr ∨ buffer + curr + bytes.length ≤ x → loadByte s' x = loadByte s x

lemma emitAll_putUser (hrun : KernelRun img m s blocks) (bytes : List UInt8) (curr : ℕ)
    (hroom : buffer + curr + bytes.length ≤ 2 ^ 47)
    (hload : ∀ i < bytes.length, (loadByte s (buffer + curr + i)).isSome) :
    ∃ s', emitAll (putUser buffer) bytes (s, curr) = some (s', curr + bytes.length) ∧
      Buffered img m blocks buffer curr bytes s s' := by
  induction bytes generalizing s curr with
  | nil => exact ⟨s, rfl, hrun, rfl, fun i hi => absurd hi (Nat.not_lt_zero i), fun _ _ _ => rfl⟩
  | cons b bytes ih =>
    rw [List.length_cons] at hroom hload
    obtain ⟨s₁, hs₁, hrun₁, hleft₁, hloads₁⟩ := hrun.write_lower hready (x := buffer + curr) (by omega)
      (hload 0 (by omega)) b
    have hload₁ : ∀ i < bytes.length, (loadByte s₁ (buffer + (curr + 1) + i)).isSome := fun i hi => by
      rw [hloads₁ _ (by omega), Option.isSome_map, show buffer + (curr + 1) + i = buffer + curr + (i + 1) by omega]
      exact hload (i + 1) (by omega)
    obtain ⟨s', hs', hrun', hleft', hbytes', hothers'⟩ := ih hrun₁ (curr + 1) (by omega) hload₁
    have hfirst : loadByte s' (buffer + curr) = some b := by
      obtain ⟨v, hv⟩ := Option.isSome_iff_exists.mp (hload 0 (by omega))
      rw [hothers' _ (by omega) (by omega), hloads₁ _ (by omega), ← Nat.add_zero (buffer + curr), hv, Option.map_some,
        if_pos rfl]
    refine ⟨s', ?_, hrun', hleft'.trans hleft₁, fun i hi => ?_, fun x hx hout => ?_⟩
    · have hplace : address buffer curr = buffer + curr := Nat.mod_eq_of_lt (by omega)
      rw [emitAll_cons, putUser, hplace, hs₁, Option.bind_eq_bind, Option.bind_some, Option.bind_some, hs',
        List.length_cons, Nat.add_right_comm, Nat.add_assoc]
    · cases i with
      | zero => exact hfirst
      | succ i =>
        rw [List.length_cons] at hi
        rw [show buffer + curr + (i + 1) = buffer + (curr + 1) + i by omega]
        exact hbytes' i (by omega)
    · rw [List.length_cons] at hout
      rw [hothers' x hx (by omega), hloads₁ x hx]
      have hne : x ≠ buffer + curr := by omega
      simp [hne]

lemma emitAll_userBuffer {fmt : List UInt8} {args rest : List Arg} {bytes : List UInt8}
    (hputs : Puts fmt args bytes rest) (hrun : KernelRun img m s blocks) (hroom : buffer + bytes.length ≤ 2 ^ 47)
    (hload : ∀ i < bytes.length, (loadByte s (buffer + i)).isSome) :
    ∃ s', vprintf (putUser buffer) fmt args (s, 0) = some (rest, s', bytes.length) ∧
      Buffered img m blocks buffer 0 bytes s s' := by
  obtain ⟨s', hs', hbuffered⟩ := emitAll_putUser hready hrun bytes 0 hroom hload
  refine ⟨s', ?_, hbuffered⟩
  rw [hputs, hs', Option.map_some, Nat.zero_add]

end Buffer

section Writing

variable {img : Image} {m : Memory} {s : State Frames} {blocks : List Block} (hready : Ready img m)
    (hrun : KernelRun img m s blocks)
include hready hrun

lemma handleWrite_run {logLevel : ℕ} (hoff : AllocatorsOff logLevel) (a0 a7 : ℕ) {fuel addr : ℕ} {b : List UInt8}
    (haddr : addr + b.length ≤ 2 ^ 47)
    (hb : ∀ i (hi : i < b.length), loadByte s (addr + i) = some b[i]) (hfuel : (b.length + 1) / 4096 + 2 < fuel)
    (hleft : 4 * ((b.length + 1) / 4096 + 2) ≤ framesLeft img s.mem) :
    ∃ s' p, handleWrite (reserved img) fuel logLevel ⟨a0, addr, b.length, a7⟩ s = some (s', untilZero b) ∧
      KernelRun img m s' ((p, b.length + 1) :: blocks) ∧
      framesLeft img s.mem ≤ framesLeft img s'.mem + 4 * ((b.length + 1) / 4096 + 2) ∧
      ∀ x < 2 ^ 47, loadByte s' x = loadByte s x := by
  have hsize : (b.length + 1) % 2 ^ 64 = b.length + 1 := Nat.mod_eq_of_lt (by omega)
  obtain ⟨s₁, hk, hrun₁, hleft₁⟩ := hrun.kalloc_run hready (by omega) hfuel hleft
  have hkernel := (KernelInv.run hready hrun).kernel
  obtain ⟨lines, hlines, _, hsilent⟩ := allocatorLines_eq hkernel logLevel (by omega) hk
  obtain rfl := hsilent.mpr (hoff.silent s _)
  obtain ⟨s', hs'⟩ := handleWrite_eq hkernel haddr hb a0 a7 (by omega) (p := s.freeList + 16) hk hlines
  have hwrite := hs'
  obtain ⟨_, _, hwrite⟩ := Option.bind_eq_some_iff.mp hwrite
  obtain ⟨⟨p, t₁⟩, hk₁, hwrite⟩ := Option.bind_eq_some_iff.mp hwrite
  obtain ⟨s₂, hcopy, hwrite⟩ := Option.bind_eq_some_iff.mp hwrite
  obtain ⟨s₃, hstore, hwrite⟩ := Option.bind_eq_some_iff.mp hwrite
  obtain ⟨_, _, hwrite⟩ := Option.bind_eq_some_iff.mp hwrite
  obtain ⟨rfl, _⟩ := Prod.mk.inj (Option.some.inj hwrite)
  dsimp only at hk₁ hcopy hstore
  rw [hsize] at hk₁
  obtain ⟨rfl, rfl⟩ := Prod.mk.inj (Option.some.inj (hk₁.symm.trans hk))
  have hblock : (s.freeList + 16, b.length + 1) ∈ (s.freeList + 16, b.length + 1) :: blocks := List.mem_cons_self
  obtain ⟨hrun₂, hfl₂, hleft₂, _, hsteps₂⟩ := hrun₁.memcpy hready hblock (by omega) hcopy
  have hend : s.freeList + 16 + b.length ∈ Block.range (s.freeList + 16, b.length + 1) := ⟨by omega, by omega⟩
  have hlast : (s.freeList + 16 + b.length) % 2 ^ 64 = s.freeList + 16 + b.length := by
    have hin := (hrun₁.inHeap hready hblock hend).bounds
    omega
  rw [hlast] at hstore
  obtain ⟨hrun₃, _, hleft₃, _⟩ := hrun₂.write hready hblock hend hstore
  have hsteps : ReflTransGen (HeapStep img) (s, blocks) (s₃, (s.freeList + 16, b.length + 1) :: blocks) :=
    ((ReflTransGen.single (.kalloc (by omega) hk)).trans (hsteps₂ _ hblock).1).tail (.write hblock hend hstore)
  exact ⟨s₃, _, hs', hrun₃, by omega, loadByte_lower (hrun.heapInv hready) hsteps⟩

variable (others : Others) (handler buffer : Word) (c : Cpu) {fuel logLevel : ℕ} (hoff : AllocatorsOff logLevel)

def SameOutside (buffer : ℕ) (s s' : State Frames) : Prop :=
  ∀ x < 2 ^ 47, x < buffer ∨ buffer + 200 ≤ x → loadByte s' x = loadByte s x

include hoff in
lemma userPrintf_run {fmt : List UInt8} {args : List Arg} {n : ℕ} (hwidth : Width fmt args n) (hn : n ≤ 200)
    (hbuffer : buffer.toNat + 200 ≤ 2 ^ 47) (hload : ∀ i < 200, (loadByte s (buffer.toNat + i)).isSome)
    (hfuel : 2 < fuel) (hleft : 8 ≤ framesLeft img s.mem) :
    ∃ s' block bytes rest, kernelVprintf fmt args = some (rest, bytes) ∧
      userPrintf img others fuel logLevel handler buffer c fmt args s =
        some (s', message logLevel ++ untilZero bytes) ∧
      KernelRun img m s' (block :: blocks) ∧ framesLeft img s.mem ≤ framesLeft img s'.mem + 8 ∧
      SameOutside buffer.toNat s s' ∧ ∀ i < 200, (loadByte s' (buffer.toNat + i)).isSome := by
  rcases hwidth.outcome with ⟨bytes, rest, rfl, hputs⟩ | ⟨hlong, _⟩
  swap
  · omega
  obtain ⟨s₁, hprint, hrun₁, hleft₁, hstored, hothers⟩ := emitAll_userBuffer hready hputs hrun (by omega)
    (fun i hi => hload i (by omega))
  rw [Nat.add_zero] at hstored hothers
  obtain ⟨s₂, p, hwrite, hrun₂, hleft₂, hlower⟩ := handleWrite_run hready hrun₁ hoff (1 : Word).toNat 1 (by omega)
    hstored (by omega : (bytes.length + 1) / 4096 + 2 < fuel) (by omega)
  have hcount : (BitVec.ofNat 64 bytes.length).toNat = bytes.length := by
    rw [BitVec.toNat_ofNat, Nat.mod_eq_of_lt (by omega)]
  refine ⟨s₂, (p, bytes.length + 1), bytes, rest, ?_, ?_, hrun₂, by omega, fun x hx hout => ?_, fun i hi => ?_⟩
  · rw [kernelVprintf, hputs, emitAll_putChar]
    rfl
  · simp only [userPrintf, hprint, syscallParameters_write, hcount, handleSyscall, log_syscall, hwrite,
      Option.bind_eq_bind, Option.bind_some, if_pos]
  · rw [hlower x hx, hothers x hx (by omega)]
  · rw [hlower _ (by omega)]
    by_cases hi' : i < bytes.length
    · rw [hstored i hi']
      rfl
    · rw [hothers _ (by omega) (by omega)]
      exact hload i hi

end Writing

/-- What the console receives for a call, were the kernel itself to print it. -/
def Prints (call : List UInt8 × List Arg) (text : List UInt8) : Prop :=
  ∃ rest, kernelVprintf call.1 call.2 = some (rest, text)

/-- However many calls a program makes, as long as each asks for at most the 200 bytes of the buffer and the frames
last: the console receives what the kernel would print for them, in order and each up to its first zero. The kernel
stays in a state it can reach, with one block more for each call, and the program's memory is as it was outside the
buffer. -/
theorem userPrintfs_on_console (img : Image) (m : Memory) (hready : Ready img m) (s : State Frames)
    (blocks : List Block) (hrun : KernelRun img m s blocks) (others : Others) (handler buffer : Word) (c : Cpu)
    (fuel logLevel : ℕ) (hoff : AllocatorsOff logLevel) (hfuel : 2 < fuel) (calls : List (List UInt8 × List Arg))
    (hcalls : ∀ call ∈ calls, ∃ n ≤ 200, Width call.1 call.2 n) (hbuffer : buffer.toNat + 200 ≤ 2 ^ 47)
    (hload : ∀ i < 200, (loadByte s (buffer.toNat + i)).isSome) (hleft : 8 * calls.length ≤ framesLeft img s.mem) :
    ∃ s' taken texts, List.Forall₂ Prints calls texts ∧
      userPrintfs img others fuel logLevel handler buffer c calls s =
        some (s', (texts.map fun text => message logLevel ++ untilZero text).flatten) ∧
      KernelRun img m s' (taken ++ blocks) ∧ taken.length = calls.length ∧ SameOutside buffer.toNat s s' := by
  induction calls generalizing s blocks with
  | nil => exact ⟨s, [], [], .nil, rfl, hrun, rfl, fun _ _ _ => rfl⟩
  | cons call calls ih =>
    obtain ⟨hcall, hcalls⟩ := List.forall_mem_cons.mp hcalls
    obtain ⟨n, hn, hwidth⟩ := hcall
    rw [List.length_cons] at hleft
    obtain ⟨s₁, block, text, rest, htext, hprint, hrun₁, hleft₁, hsame₁, hload₁⟩ := userPrintf_run hready hrun others
      handler buffer c hoff hwidth hn hbuffer hload hfuel (by omega)
    obtain ⟨s', taken, texts, htexts, hprints, hrun', htaken, hsame'⟩ :=
      ih s₁ (block :: blocks) hrun₁ hcalls hload₁ (by omega)
    refine ⟨s', taken ++ [block], text :: texts, .cons ⟨rest, htext⟩ htexts, ?_, ?_, ?_, fun x hx hout => ?_⟩
    · simp only [userPrintfs, hprint, hprints, Option.bind_eq_bind, Option.bind_some, List.map_cons,
        List.flatten_cons]
    · rwa [List.append_assoc, List.singleton_append]
    · rw [List.length_append, List.length_singleton, htaken, List.length_cons]
    · rw [hsame' x hx hout, hsame₁ x hx hout]

section Examples

def letterAndNumber : List UInt8 × List Arg := ([char 'a', char '%', char 'i'], [.int 7])

lemma buffer_page {n : ℕ} (hn : n < 4096) : ∃ s, KernelRun megabyteImage (fun _ => 0) s [] ∧
    (∀ i < n, (loadByte s (0x10000 + i)).isSome) ∧ 32000 ≤ framesLeft megabyteImage s.mem := by
  obtain ⟨s, hrun, hchars, _, hframes⟩ := text_page (List.replicate n 1) (by rwa [List.length_replicate])
  refine ⟨s, hrun, fun i hi => ?_, hframes⟩
  rw [hchars i (by rwa [List.length_replicate])]
  rfl

/-- A program with its buffer at the start of a page prints the same line twice. -/
theorem userPrintfs_on_console_twice : ∃ s s' taken, KernelRun megabyteImage (fun _ => 0) s [] ∧
    userPrintfs megabyteImage (fun _ _ => none) 3 0 0x80001000 0x10000 beforeSwitch
      [letterAndNumber, letterAndNumber] s = some (s', [char 'a', char '7', char 'a', char '7']) ∧
    KernelRun megabyteImage (fun _ => 0) s' taken ∧ taken.length = 2 := by
  obtain ⟨s, hrun, hload, hframes⟩ := buffer_page (n := 200) (by norm_num)
  have hwidth : Width letterAndNumber.1 letterAndNumber.2 2 :=
    .plain _ (by decide) (.int _ 7 (Or.inr rfl) (by decide) (.nil []))
  have hcalls : ∀ call ∈ [letterAndNumber, letterAndNumber], ∃ n ≤ 200, Width call.1 call.2 n := by
    intro call hcall
    obtain rfl : call = letterAndNumber := by simpa using hcall
    exact ⟨2, by decide, hwidth⟩
  obtain ⟨s', taken, texts, htexts, hprints, hrun', htaken, _⟩ := userPrintfs_on_console megabyteImage _
    megabyteImage_ready s [] hrun (fun _ _ => none) 0x80001000 0x10000 beforeSwitch 3 0 (by decide) (by decide) _ hcalls
    (by decide) hload (by simp only [List.length_cons, List.length_nil]; omega)
  have htext : ∀ text, Prints letterAndNumber text → text = [char 'a', char '7'] := by
    rintro text ⟨rest, htext⟩
    exact (Prod.mk.inj (Option.some.inj htext)).2.symm
  cases htexts with
  | cons h₁ htexts =>
    cases htexts with
    | cons h₂ htexts =>
      cases htexts
      rw [htext _ h₁, htext _ h₂] at hprints
      refine ⟨s, s', taken, hrun, hprints, ?_, htaken⟩
      rwa [List.append_nil] at hrun'

end Examples

end TetraOS.Console
