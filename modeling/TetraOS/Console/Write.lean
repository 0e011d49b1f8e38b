import TetraOS.Console.AllocatorLog
import TetraOS.Processes.ProcessImage
import TetraOS.Processes.SystemCall
import Mathlib.Data.List.TakeWhile

/-! The `write` system call, from the library of the programs (tlibc/syscalls/write.c, tlibc/syscalls/syscall.c) to the
console (kernel/syscalls/syscall.cpp, kernel/libk/logging.cpp). -/

namespace TetraOS.Console

open Memory Processes Library.Riscv PhysicalAllocator

def handling : List UInt8 := ['H', 'a', 'n', 'd', 'l', 'i', 'n', 'g', ' ', 's', 'y', 's', 't', 'e', 'm', ' ', 'c', 'a',
  'l', 'l', ' ', 'w', 'i', 't', 'h', ' ', 'p', 'a', 'r', 'a', 'm', 'e', 't', 'e', 'r', ' ', '%', 'i'].map char

section Kernel

variable (limit fuel : ℕ)

/-- Case 1 of `handle_syscall`, with what it sends to `put_char`. -/
def handleWrite (logLevel : ℕ) (params : SyscallParameters) (s : State Frames) :
    Option (State Frames × List UInt8) := do
  let lines ← allocatorLines limit fuel logLevel s ((params.a2 + 1) % 2 ^ 64)
  let (buffer, s) ← kalloc (kallocFrame limit) fuel s ((params.a2 + 1) % 2 ^ 64)
  let s ← memcpy s buffer params.a1 params.a2
  let s ← storeByte s ((buffer + params.a2) % 2 ^ 64) 0
  let (_, out) ← kernelVprintf [char '%', char 's'] [.pointer fun i => loadByte s (buffer + i)]
  some (s, lines ++ out)

/-- The cases other than 1 are a parameter. -/
def handleSyscall (others : SyscallParameters → State Frames → Option (State Frames × List UInt8)) (logLevel : ℕ)
    (params : SyscallParameters) (s : State Frames) : Option (State Frames × List UInt8) := do
  let line ← log logLevel .syscall handling [.int (BitVec.ofNat 32 params.a7).toInt]
  let (s, out) ← if params.a7 = 1 then handleWrite limit fuel logLevel params s else others params s
  some (s, line ++ out)

end Kernel

def message (logLevel : ℕ) : List UInt8 := if logLevel &&& LogLevel.bit .syscall = 0 then [] else
  (LogLevel.tag .syscall).map char ++ [char ' '] ++ handling.dropLast.dropLast ++ [char '1', char '\n']

lemma log_syscall (logLevel : ℕ) :
    log logLevel .syscall handling [.int (BitVec.ofNat 32 1).toInt] = some (message logLevel) := by
  rw [log, message]
  split <;> rfl

lemma message_eq_nil_iff (logLevel : ℕ) : message logLevel = [] ↔ logLevel &&& LogLevel.bit .syscall = 0 := by
  rw [message]
  split <;> simp_all

lemma zero_notMem_message (logLevel : ℕ) : 0 ∉ message logLevel := by
  rw [message]
  split <;> decide

section Bytes

def untilZero (b : List UInt8) : List UInt8 := b.takeWhile (· ≠ 0)

variable {b : List UInt8}

lemma ne_zero_of_mem_untilZero {c : UInt8} (hc : c ∈ untilZero b) : c ≠ 0 := by
  have hh := List.mem_takeWhile_imp hc
  exact of_decide_eq_true hh

lemma untilZero_eq_self_iff : untilZero b = b ↔ ∀ c ∈ b, c ≠ 0 := by
  simp [untilZero, List.takeWhile_eq_self_iff]

lemma append_untilZero {l : List UInt8} (hl : 0 ∉ l) : l ++ untilZero b = b ↔ l = [] ∧ ∀ c ∈ b, c ≠ 0 := by
  rw [← untilZero_eq_self_iff]
  constructor
  · intro hout
    have hnonzero : ∀ c ∈ b, c ≠ 0 := by
      intro c hc
      rw [← hout] at hc
      rcases List.mem_append.mp hc with hc | hc
      · exact ne_of_mem_of_not_mem hc hl
      · exact ne_zero_of_mem_untilZero hc
    have hself := untilZero_eq_self_iff.mpr hnonzero
    rw [hself] at hout
    exact ⟨List.append_left_eq_self.mp hout, hself⟩
  · rintro ⟨rfl, hself⟩
    exact hself

lemma string_untilZero {chars : ℕ → Option UInt8} (hb : ∀ i (hi : i < b.length), chars i = some b[i])
    (hend : chars b.length = some 0) :
    (∀ i (hi : i < (untilZero b).length), chars i = some (untilZero b)[i]) ∧ chars (untilZero b).length = some 0 := by
  have hsplit : untilZero b ++ b.dropWhile (· ≠ 0) = b := List.takeWhile_append_dropWhile
  have hlen := congrArg List.length hsplit
  rw [List.length_append] at hlen
  constructor
  · intro i hi
    have hi' : i < b.length := by omega
    rw [hb i hi', List.getElem_of_eq hsplit.symm hi', List.getElem_append_left hi]
  · by_cases hd : b.dropWhile (· ≠ 0) = []
    · rw [hd, List.append_nil] at hsplit
      rw [hsplit, hend]
    · have hzero : (b.dropWhile (· ≠ 0)).head hd = 0 := by
        simpa using List.head_dropWhile_not (· ≠ (0 : UInt8)) hd
      have hpos := List.length_pos_iff.mpr hd
      have hi' : (untilZero b).length < b.length := by omega
      rw [hb _ hi', List.getElem_of_eq hsplit.symm hi', List.getElem_append_right le_rfl]
      simp only [Nat.sub_self, List.getElem_zero_eq_head, hzero]

lemma kernelVprintf_string {chars : ℕ → Option UInt8} (hb : ∀ i (hi : i < b.length), chars i = some b[i])
    (hend : chars b.length = some 0) (hlen : b.length ≤ intMax) :
    kernelVprintf [char '%', char 's'] [.pointer chars] = some ([], untilZero b) := by
  obtain ⟨hbytes, hzero⟩ := string_untilZero hb hend
  have hle : (untilZero b).length ≤ intMax := (List.takeWhile_prefix _).length_le.trans hlen
  have hprint : printString putChar chars intMax 0 [] = emitAll putChar (untilZero b) [] :=
    printString_eq putChar hle (by simpa using hbytes) (fun c => ne_zero_of_mem_untilZero) (by simpa using hzero) []
  rw [kernelVprintf, vprintf_string, hprint, emitAll_putChar]
  rfl

end Bytes

section Handling

variable {α : Type} {S : FrameSource α} {s : State α} (h : Kernel S s) {addr : ℕ} {b : List UInt8}
  (haddr : addr + b.length ≤ 2 ^ 47) (hb : ∀ i (hi : i < b.length), loadByte s (addr + i) = some b[i])
include h haddr hb

lemma copy_terminated {p : ℕ} (hlo : heapStart ≤ p) (hfl : p + b.length + 1 = s.freeList) :
    ∃ s₁ s₂, memcpy s p addr b.length = some s₁ ∧ storeByte s₁ (p + b.length) 0 = some s₂ ∧
      (∀ i (hi : i < b.length), loadByte s₂ (p + i) = some b[i]) ∧ loadByte s₂ (p + b.length) = some 0 := by
  have hlow := lower_le_heapStart
  have hin : ∀ x, p ≤ x → x < p + b.length + 1 → InHeap x ∧ Mapped s x := fun x hx hx' =>
    inHeap_of_freeList h (by omega) (by omega)
  have hus : ∀ x, addr ≤ x → x < addr + b.length → Usable Everywhere Everywhere x := fun x _ hx =>
    usable_of_lower (by omega)
  have hms : ∀ x, addr ≤ x → x < addr + b.length → Mapped s x := by
    intro x hx hx'
    have hs := hb (x - addr) (by omega)
    rw [Nat.add_sub_cancel' hx] at hs
    exact mapped_of_loadByte h.tree (hus x hx hx') (by rw [hs]; rfl)
  have hview : ∀ i (hi : i < b.length), view s (addr + i) = b[i] := by
    intro i hi
    have hs := hb i hi
    rw [loadByte_eq h.tree (hus _ (by omega) (by omega)) (hms _ (by omega) (by omega))] at hs
    exact Option.some.inj hs
  obtain ⟨s₁, hs₁, hw⟩ := memcpy_eq h.tree (fun x hx hx' => h.usable (hin x hx (by omega)).1)
    (fun x hx hx' => (hin x hx (by omega)).2) hus hms (Or.inl (by omega))
  have hend := hin (p + b.length) (by omega) (by omega)
  obtain ⟨s₂, hs₂, htree, hsame, hv⟩ := storeByte_eq hw.tree (b := 0) (h.usable hend.1)
    ((hw.same.mapped hend.1.outside).mpr hend.2)
  have hload : ∀ x, p ≤ x → x < p + b.length + 1 → loadByte s₂ x = some (view s₂ x) := fun x hx hx' =>
    have hx := hin x hx hx'
    loadByte_eq htree (h.usable hx.1) ((hsame.mapped hx.1.outside).mpr ((hw.same.mapped hx.1.outside).mpr hx.2))
  refine ⟨s₁, s₂, hs₁, hs₂, fun i hi => ?_, ?_⟩
  · have hu := h.usable (hin (p + i) (by omega) (by omega)).1
    rw [hload _ (by omega) (by omega), hv _ hu.outside hu.canonical trivial, if_neg (by omega),
      hw.view _ hu.outside hu.canonical trivial, patch_inside hi, hview i hi]
  · rw [hload _ (by omega) (by omega), hv _ hend.1.outside hend.1.canonical trivial, if_pos rfl]

end Handling

section Output

variable {img : Image} {hr : Room img} {s : State Frames} (h : Kernel (source img hr) s) {addr : ℕ} {b : List UInt8}
  (haddr : addr + b.length ≤ 2 ^ 47) (hb : ∀ i (hi : i < b.length), loadByte s (addr + i) = some b[i])
include h haddr hb

lemma handleWrite_eq {fuel logLevel p : ℕ} (a0 a7 : ℕ) {s₁ : State Frames} {lines : List UInt8}
    (hn : b.length + 1 < 2 ^ 62) (hk : kalloc (kallocFrame (reserved img)) fuel s (b.length + 1) = some (p, s₁))
    (hlines : allocatorLines (reserved img) fuel logLevel s (b.length + 1) = some lines) :
    ∃ s', handleWrite (reserved img) fuel logLevel ⟨a0, addr, b.length, a7⟩ s = some (s', lines ++ untilZero b) := by
  have hst := h.start
  obtain ⟨h₁, hp, hfl, _⟩ := h.kalloc (by omega) hk
  have hsp := h₁.space
  have hend := h₁.end_le
  rw [heapLimit_eq] at hend
  have hb₁ : ∀ i (hi : i < b.length), loadByte s₁ (addr + i) = some b[i] := by
    intro i hi
    rw [kalloc_lower h (by omega) hk _ (by omega), hb i hi]
  obtain ⟨s₂, s₃, hs₂, hs₃, hbytes, hzero⟩ := copy_terminated h₁ haddr hb₁ (p := p) (by omega) hfl.symm
  have hlen : b.length ≤ intMax := by
    rw [heapStart_eq] at hst
    rw [intMax]
    omega
  refine ⟨s₃, ?_⟩
  have hprint : kernelVprintf [char '%', char 's'] [.pointer fun i => loadByte s₃ (p + i)] = some ([], untilZero b) :=
    kernelVprintf_string hbytes hzero hlen
  have hsize : (b.length + 1) % 2 ^ 64 = b.length + 1 := Nat.mod_eq_of_lt (by omega)
  have hlast : (p + b.length) % 2 ^ 64 = p + b.length := Nat.mod_eq_of_lt (by omega)
  simp only [handleWrite, hsize, hlines, hk, hs₂, hlast, hs₃, hprint, Option.bind_eq_bind, Option.bind_some]

lemma handleSyscall_eq (others : SyscallParameters → State Frames → Option (State Frames × List UInt8))
    (fuel logLevel a0 : ℕ) (hn : b.length + 1 < 2 ^ 62) :
    (handleSyscall (reserved img) fuel others logLevel ⟨a0, addr, b.length, 1⟩ s).map Prod.snd =
      if (kalloc (kallocFrame (reserved img)) fuel s (b.length + 1)).isSome then
        (allocatorLines (reserved img) fuel logLevel s (b.length + 1)).map fun lines =>
          message logLevel ++ lines ++ untilZero b
      else none := by
  simp only [handleSyscall, log_syscall, Option.bind_eq_bind, Option.bind_some, if_pos]
  cases hk : kalloc (kallocFrame (reserved img)) fuel s (b.length + 1) with
  | none =>
    have hsize : (b.length + 1) % 2 ^ 64 = b.length + 1 := Nat.mod_eq_of_lt (by omega)
    simp only [handleWrite, hsize, hk, Option.bind_eq_bind, Option.bind_none, Option.bind_fun_none]
    rfl
  | some r =>
    obtain ⟨p, s₁⟩ := r
    obtain ⟨lines, hlines, -⟩ := allocatorLines_eq h logLevel (by omega) hk
    obtain ⟨s', hs'⟩ := handleWrite_eq h haddr hb a0 1 hn hk hlines
    rw [hs', hlines]
    simp only [Option.bind_some, Option.map_some, Option.isSome_some, if_pos, List.append_assoc]

end Output

/-- What `write(1, buf, n)` of a program with the registers `c` sends to `put_char`. -/
def Sends (img : Image) (others : SyscallParameters → State Frames → Option (State Frames × List UInt8))
    (fuel logLevel : ℕ) (handler : Word) (c : Cpu) (s : State Frames) (buf : Word) (n : ℕ) (out : List UInt8) : Prop :=
  (handleSyscall (reserved img) fuel others logLevel (syscallParameters
    (exec (jumpToMachineExceptionHandler handler) (ecall (tlibcWrite 1 buf (BitVec.ofNat 64 n) c)))) s).map Prod.snd =
      some out

def Serves (img : Image) (fuel : ℕ) (s : State Frames) (size : ℕ) : Prop :=
  (kalloc (kallocFrame (reserved img)) fuel s size).isSome

section Transparency

variable {img : Image} {hr : Room img} {s : State Frames} (h : Kernel (source img hr) s) {buf : Word} {b : List UInt8}
  (hbuf : buf.toNat + b.length ≤ 2 ^ 47) (hb : ∀ i (hi : i < b.length), loadByte s (buf.toNat + i) = some b[i])
  (others : SyscallParameters → State Frames → Option (State Frames × List UInt8)) (fuel logLevel : ℕ)
  (handler : Word) (c : Cpu)
include h

lemma serves_of_frames {fuel size : ℕ} (hsize : size < 2 ^ 62) (hfuel : size / 4096 + 2 < fuel)
    (hl : 4 * (size / 4096 + 2) ≤ framesLeft img s.mem) : Serves img fuel s size := by
  obtain ⟨s', hk, _⟩ := kalloc_effect h hsize hfuel hl
  rw [Serves]
  exact Option.isSome_iff_exists.mpr ⟨_, hk⟩

include hbuf hb

lemma sends_iff (out : List UInt8) : Sends img others fuel logLevel handler c s buf b.length out ↔
    Serves img fuel s (b.length + 1) ∧ ∃ lines, allocatorLines (reserved img) fuel logLevel s (b.length + 1) =
      some lines ∧ 0 ∉ lines ∧ (lines = [] ↔ SilentAllocation logLevel s (b.length + 1)) ∧
      message logLevel ++ lines ++ untilZero b = out := by
  have hlen : (BitVec.ofNat 64 b.length).toNat = b.length := by
    rw [BitVec.toNat_ofNat, Nat.mod_eq_of_lt (by omega)]
  have hout := handleSyscall_eq h hbuf hb others fuel logLevel (1 : Word).toNat (by omega)
  rw [Sends, syscallParameters_write, hlen, hout]
  by_cases hserves : (kalloc (kallocFrame (reserved img)) fuel s (b.length + 1)).isSome
  · obtain ⟨⟨p, s'⟩, hk⟩ := Option.isSome_iff_exists.mp hserves
    obtain ⟨lines, hlines, hzero, hsilent⟩ := allocatorLines_eq h logLevel (by omega) hk
    rw [if_pos hserves, hlines, Option.map_some, Option.some.injEq]
    constructor
    · exact fun hh => ⟨hserves, lines, rfl, hzero, hsilent, hh⟩
    · rintro ⟨_, lines', hlines', _, _, hh⟩
      rwa [Option.some.inj hlines']
  · rw [if_neg hserves]
    exact iff_of_false (Option.some_ne_none out).symm fun hh => hserves hh.1

lemma sends_lines_iff : Sends img others fuel logLevel handler c s buf b.length
      (message logLevel ++ (allocatorLines (reserved img) fuel logLevel s (b.length + 1)).getD [] ++ b) ↔
    (∀ c ∈ b, c ≠ 0) ∧ Serves img fuel s (b.length + 1) := by
  rw [← untilZero_eq_self_iff]
  constructor
  · intro hsends
    obtain ⟨hserves, lines, hlines, _, _, hout⟩ := (sends_iff h hbuf hb others fuel logLevel handler c _).mp hsends
    rw [hlines, Option.getD_some] at hout
    exact ⟨List.append_cancel_left hout, hserves⟩
  · rintro ⟨hself, hserves⟩
    obtain ⟨⟨p, s'⟩, hk⟩ := Option.isSome_iff_exists.mp hserves
    obtain ⟨lines, hlines, hzero, hsilent⟩ := allocatorLines_eq h logLevel (by omega) hk
    refine (sends_iff h hbuf hb others fuel logLevel handler c _).mpr ⟨hserves, lines, hlines, hzero, hsilent, ?_⟩
    rw [hlines, Option.getD_some, hself]

lemma sends_message_iff : Sends img others fuel logLevel handler c s buf b.length (message logLevel ++ b) ↔
    (∀ c ∈ b, c ≠ 0) ∧ SilentAllocation logLevel s (b.length + 1) ∧ Serves img fuel s (b.length + 1) := by
  constructor
  · intro hsends
    obtain ⟨hserves, lines, _, hzero, hsilent, hout⟩ :=
      (sends_iff h hbuf hb others fuel logLevel handler c _).mp hsends
    rw [List.append_assoc, List.append_cancel_left_eq, append_untilZero hzero] at hout
    exact ⟨hout.2, hsilent.mp hout.1, hserves⟩
  · rintro ⟨hnonzero, hquiet, hserves⟩
    have hsends := (sends_lines_iff h hbuf hb others fuel logLevel handler c).mpr ⟨hnonzero, hserves⟩
    obtain ⟨_, lines, hlines, _, hsilent, _⟩ := (sends_iff h hbuf hb others fuel logLevel handler c _).mp hsends
    rwa [hlines, Option.getD_some, hsilent.mpr hquiet, List.append_nil] at hsends

lemma sends_bytes_iff : Sends img others fuel logLevel handler c s buf b.length b ↔
    (∀ c ∈ b, c ≠ 0) ∧ logLevel &&& LogLevel.bit .syscall = 0 ∧ SilentAllocation logLevel s (b.length + 1) ∧
      Serves img fuel s (b.length + 1) := by
  rw [← message_eq_nil_iff]
  constructor
  · intro hsends
    obtain ⟨hserves, lines, _, hzero, hsilent, hout⟩ :=
      (sends_iff h hbuf hb others fuel logLevel handler c _).mp hsends
    have hfront : 0 ∉ message logLevel ++ lines := by simp [zero_notMem_message, hzero]
    obtain ⟨hnil, hnonzero⟩ := (append_untilZero hfront).mp hout
    obtain ⟨hmessage, hlines⟩ := List.append_eq_nil_iff.mp hnil
    exact ⟨hnonzero, hmessage, hsilent.mp hlines, hserves⟩
  · rintro ⟨hnonzero, hmessage, hquiet, hserves⟩
    have hsends := (sends_message_iff h hbuf hb others fuel logLevel handler c).mpr ⟨hnonzero, hquiet, hserves⟩
    rwa [hmessage, List.nil_append] at hsends

end Transparency

/-- In every state that the kernel can reach, and for every buffer of a program: the console receives the bytes of the
buffer, behind the message and the lines of `kalloc` if there are any, if and only if none of them is zero and the
kernel has the memory for its copy. -/
theorem write_transparent_iff (img : Image) (m : Library.ByteMemory.Memory) (hready : Ready img m) (s : State Frames)
    (blocks : List Block) (hrun : KernelRun img m s blocks)
    (others : SyscallParameters → State Frames → Option (State Frames × List UInt8)) (fuel logLevel : ℕ)
    (handler : Word) (c : Cpu) (buf : Word) (b : List UInt8) (hbuf : buf.toNat + b.length ≤ 2 ^ 47)
    (hb : ∀ i (hi : i < b.length), loadByte s (buf.toNat + i) = some b[i]) :
    (Sends img others fuel logLevel handler c s buf b.length b ↔
      (∀ c ∈ b, c ≠ 0) ∧ logLevel &&& LogLevel.bit .syscall = 0 ∧ SilentAllocation logLevel s (b.length + 1) ∧
        Serves img fuel s (b.length + 1)) ∧
    (Sends img others fuel logLevel handler c s buf b.length (message logLevel ++ b) ↔
      (∀ c ∈ b, c ≠ 0) ∧ SilentAllocation logLevel s (b.length + 1) ∧ Serves img fuel s (b.length + 1)) ∧
    (Sends img others fuel logLevel handler c s buf b.length
        (message logLevel ++ (allocatorLines (reserved img) fuel logLevel s (b.length + 1)).getD [] ++ b) ↔
      (∀ c ∈ b, c ≠ 0) ∧ Serves img fuel s (b.length + 1)) :=
  have h := (KernelInv.run hready hrun).kernel
  ⟨sends_bytes_iff h hbuf hb others fuel logLevel handler c, sends_message_iff h hbuf hb others fuel logLevel handler c,
    sends_lines_iff h hbuf hb others fuel logLevel handler c⟩

section Examples

/-- The levels are none, that of system calls, and that of the kernel heap, whose line is sent as well. -/
theorem write_transparent_letter : ∃ s, KernelRun megabyteImage (fun _ => 0) s [] ∧
    loadByte s 0x10000 = some 0x41 ∧
    Sends megabyteImage (fun _ _ => none) 3 0 0x80001000 beforeSwitch s 0x10000 1 [0x41] ∧
    Sends megabyteImage (fun _ _ => none) 3 2048 0x80001000 beforeSwitch s 0x10000 1 (message 2048 ++ [0x41]) ∧
    ¬ Sends megabyteImage (fun _ _ => none) 3 4 0x80001000 beforeSwitch s 0x10000 1 [0x41] := by
  obtain ⟨s, hrun, hletter, _, hframes⟩ := letter_page
  have hkernel := (KernelInv.run megabyteImage_ready hrun).kernel
  have hb : ∀ i (hi : i < [(0x41 : UInt8)].length), loadByte s ((0x10000 : Word).toNat + i) =
    some [(0x41 : UInt8)][i] := by
    intro i hi
    obtain rfl : i = 0 := by simpa using hi
    exact hletter
  have hserves : Serves megabyteImage 3 s 2 := serves_of_frames hkernel (by decide) (by decide) (by omega)
  have hoff : ∀ logLevel, AllocatorsOff logLevel → SilentAllocation logLevel s 2 := fun _ h => h.silent s 2
  have htransparent := fun logLevel => write_transparent_iff megabyteImage _ megabyteImage_ready s [] hrun
    (fun _ _ => none) 3 logLevel 0x80001000 beforeSwitch 0x10000 [0x41] (by decide) hb
  refine ⟨s, hrun, hletter, (htransparent 0).1.mpr ⟨by simp, by decide, hoff 0 (by decide), hserves⟩,
    (htransparent 2048).2.1.mpr ⟨by simp, hoff 2048 (by decide), hserves⟩, fun hsends => ?_⟩
  exact absurd ((htransparent 4).1.mp hsends).2.2.1.virtualMemory (by decide)

/-- What `printf("A%c", 0)` of a program passes to `write` is cut at the zero, whatever the level of messages. -/
theorem write_not_transparent_zero : ∃ s, KernelRun megabyteImage (fun _ => 0) s [] ∧
    loadByte s 0x10000 = some 0x41 ∧ loadByte s 0x10001 = some 0 ∧
    tlibcVprintf (fun _ => 0) [char 'A', char '%', char 'c'] [.int 0] = some ([], [0x41, 0]) ∧
    Sends megabyteImage (fun _ _ => none) 3 0 0x80001000 beforeSwitch s 0x10000 2 [0x41] ∧
    ∀ logLevel, ¬ Sends megabyteImage (fun _ _ => none) 3 logLevel 0x80001000 beforeSwitch s 0x10000 2 [0x41, 0] ∧
      ¬ Sends megabyteImage (fun _ _ => none) 3 logLevel 0x80001000 beforeSwitch s 0x10000 2
        (message logLevel ++ (allocatorLines (reserved megabyteImage) 3 logLevel s 3).getD [] ++ [0x41, 0]) := by
  obtain ⟨s, hrun, hletter, hzero, hframes⟩ := letter_page
  have hkernel := (KernelInv.run megabyteImage_ready hrun).kernel
  have hb : ∀ i (hi : i < [(0x41 : UInt8), 0].length),
      loadByte s ((0x10000 : Word).toNat + i) = some [(0x41 : UInt8), 0][i] := by
    intro i hi
    have hi : i < 2 := hi
    interval_cases i
    · exact hletter
    · exact hzero
  have hserves : Serves megabyteImage 3 s 3 := serves_of_frames hkernel (by decide) (by decide) (by omega)
  obtain ⟨⟨p, s'⟩, hk⟩ := Option.isSome_iff_exists.mp hserves
  obtain ⟨lines, hlines, hnonzero, hsilent⟩ := allocatorLines_eq hkernel 0 (by decide) hk
  have hquiet : AllocatorsOff 0 := by decide
  refine ⟨s, hrun, hletter, hzero, by rfl, ?_, fun logLevel => ⟨fun hsends => ?_, fun hsends => ?_⟩⟩
  · refine (sends_iff hkernel (by decide) hb _ 3 0 _ _ _).mpr ⟨hserves, lines, hlines, hnonzero, hsilent, ?_⟩
    rw [hsilent.mpr (hquiet.silent s 3)]
    rfl
  · exact ((sends_bytes_iff hkernel (by decide) hb _ 3 logLevel _ _).mp hsends).1 0 (by decide) rfl
  · exact ((sends_lines_iff hkernel (by decide) hb _ 3 logLevel _ _).mp hsends).1 0 (by decide) rfl

end Examples

end TetraOS.Console
