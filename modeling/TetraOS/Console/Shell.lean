import TetraOS.Console.Traps
import TetraOS.Console.UserPrintf
import TetraOS.Libc.StringOrder

/-! The line that the shell reads (userspace/shell/shell.c), from the characters of the terminal to the command it
stands for, with all that the library and the kernel do for it. -/

namespace TetraOS.Console

open Memory Processes Library.ByteMemory Library.Riscv PhysicalAllocator
open Libc (Width TextAt strcmp_eq)

def Terminal.send (t : Terminal) (bytes : List UInt8) : Terminal := { t with output := t.output ++ bytes }

def gotInput : List UInt8 := ['g', 'o', 't', ' ', 'i', 'n', 'p', 'u', 't', ' ', 'i', 'n', ' ', 'u', 's', 'e', 'r',
  's', 'p', 'a', 'c', 'e', ':', ' '].map char

def pwdText : List UInt8 := ['p', 'w', 'd'].map char

def lsText : List UInt8 := ['l', 's'].map char

def literal (text : List UInt8) (i : ℕ) : Option UInt8 := some (text.getD i 0)

inductive Builtin where
  | pwd | ls

abbrev Session := State Frames × Terminal

/-- What the shell runs on: the kernel, the library, its two buffers and, as a parameter, the functions of builtins.c.
-/
structure Shell where
  img : Image
  others : Others
  fuel : ℕ
  logLevel : ℕ
  handler : Word
  cpu : Cpu
  printfBuffer : Word
  buffer : Word
  builtin : Builtin → Session → Option Session

namespace Shell

variable (sh : Shell)

def printf (fmt : List UInt8) (args : List Arg) (x : Session) : Option Session := do
  let (s, out) ← userPrintf sh.img sh.others sh.fuel sh.logLevel sh.handler sh.printfBuffer sh.cpu fmt args x.1
  some (s, x.2.send out)

/-- `read` of the library, and case 0 of `handle_syscall` behind its log line. -/
def read (buf nbyte : Word) (x : Session) : Option Session := do
  let params := syscallParameters
    (exec (jumpToMachineExceptionHandler sh.handler) (ecall (tlibcRead 0 buf nbyte sh.cpu)))
  let line ← log sh.logLevel .syscall handling [.int (BitVec.ofNat 32 params.a7).toInt]
  handleRead storeByte params x.1 (x.2.send line)

def chars (x : Session) (i : ℕ) : Option UInt8 := loadByte x.1 (address sh.buffer.toNat i)

/-- One of the tests at the end of `main`. -/
def test (command : List UInt8) (b : Builtin) (x : Session) : Option Session := do
  let order ← strcmp (sh.chars x) (literal command) (command.length + 1) 0
  if order = 0 then sh.builtin b x else some x

/-- `main` from its `read` to its last loop. -/
def line (x : Session) : Option Session := do
  let x ← sh.read sh.buffer 20 x
  let x ← sh.printf (gotInput ++ [char '%', char 's', char '\n']) [.pointer (sh.chars x)] x
  let x ← sh.test pwdText .pwd x
  sh.test lsText .ls x

end Shell

structure Typed (t : Terminal) (text : List UInt8) : Prop where
  characters : ∀ i (hi : i < text.length), t.input i = text[i]
  inside : ∀ c ∈ text, c ≠ char '\r'
  ended : t.input text.length = char '\r'

def Terminal.after (t : Terminal) (text : List UInt8) : Terminal :=
  ⟨fun i => t.input (text.length + 1 + i), t.output ++ text ++ [char '\n']⟩

section Typing

variable {t : Terminal} {c : UInt8} {text : List UInt8}

lemma Typed.tail (h : Typed t (c :: text)) : t.input 0 = c ∧ c ≠ char '\r' ∧
    Typed (t.getChar.2.putChar (t.input 0)) text := by
  refine ⟨h.characters 0 (Nat.zero_lt_succ _), h.inside c List.mem_cons_self, fun i hi => ?_, fun d hd => ?_, ?_⟩
  · exact h.characters (i + 1) (Nat.succ_lt_succ hi)
  · exact h.inside d (List.mem_cons_of_mem c hd)
  · exact h.ended

lemma Terminal.after_cons (h : t.input 0 = c) :
    (t.getChar.2.putChar (t.input 0)).after text = t.after (c :: text) := by
  have hinput : (fun i => t.input (text.length + 1 + i + 1)) = fun i => t.input ((c :: text).length + 1 + i) :=
    funext fun i => by rw [List.length_cons, Nat.add_right_comm (text.length + 1)]
  simp only [Terminal.after, Terminal.getChar, Terminal.putChar, h, hinput, List.append_assoc, List.cons_append,
    List.nil_append]

lemma readLoop_echo (buffer counter : ℕ) (m : Memory) {room : ℕ} (h : Typed t text) (hroom : text.length < room) :
    ∃ m', readLoop put buffer room counter m t = some (counter + text.length, m', t.after text) := by
  induction text generalizing room counter m t with
  | nil =>
    obtain ⟨room, rfl⟩ := Nat.exists_eq_succ_of_ne_zero (by omega : room ≠ 0)
    refine ⟨Function.update m (address buffer counter) 0, (if_pos h.ended).trans ?_⟩
    have hinput : (fun i => t.input (i + 1)) = fun i => t.input (0 + 1 + i) := funext fun i => by
      rw [Nat.zero_add, Nat.add_comm]
    rw [put, Option.bind_eq_bind, Option.bind_some, Terminal.putChar, hinput, Terminal.after, List.append_nil]
    rfl
  | cons c text ih =>
    obtain ⟨room, rfl⟩ := Nat.exists_eq_succ_of_ne_zero (by omega : room ≠ 0)
    obtain ⟨hfirst, hne, htail⟩ := h.tail
    have hlen : text.length < room := by
      rw [List.length_cons] at hroom
      omega
    obtain ⟨m', hloop⟩ := ih (counter + 1) (Function.update m (address buffer counter) (t.input 0)) htail hlen
    refine ⟨m', (if_neg (hfirst ▸ hne)).trans (hloop.trans ?_)⟩
    rw [Terminal.after_cons hfirst, List.length_cons, Nat.add_right_comm, Nat.add_assoc]

end Typing

section Reading

variable {sh : Shell} {m : Memory} {s : State Frames} {blocks : List Block} {t : Terminal} {text : List UInt8}
    (hready : Ready sh.img m) (hrun : KernelRun sh.img m s blocks) (htyped : Typed t text)

structure LineIn (buffer : ℕ) (text : List UInt8) (s s' : State Frames) : Prop where
  characters : ∀ i (hi : i < text.length), loadByte s' (buffer + i) = some text[i]
  ended : loadByte s' (buffer + text.length) = some 0
  others : ∀ x < 2 ^ 47, x < buffer ∨ buffer + 20 ≤ x → loadByte s' x = loadByte s x

include hready hrun htyped in
lemma Shell.read_line (hlen : text.length < 20) (hbuffer : sh.buffer.toNat + 20 ≤ 2 ^ 47)
    (hload : ∀ i < 20, (loadByte s (sh.buffer.toNat + i)).isSome) :
    ∃ s', sh.read sh.buffer 20 (s, t) = some (s', (t.send (syscallMessage sh.logLevel 0)).after text) ∧
      KernelRun sh.img m s' blocks ∧ framesLeft sh.img s'.mem = framesLeft sh.img s.mem ∧
      LineIn sh.buffer.toNat text s s' := by
  have hsent : Typed (t.send (syscallMessage sh.logLevel 0)) text := ⟨htyped.characters, htyped.inside, htyped.ended⟩
  have hsize : (20 : Word).toNat = 20 := rfl
  obtain ⟨n, s', m', t', hhandle, hput, hrun', hleft', hsees⟩ := handleRead_sees hready hrun 0 sh.buffer 20 sh.handler
    sh.cpu (t.send (syscallMessage sh.logLevel 0)) (by rwa [hsize]) (by rwa [hsize])
  obtain ⟨m₁, hecho⟩ := readLoop_echo sh.buffer.toNat 0 (view s) hsent hlen
  obtain ⟨k, m₂, t₂, hloop, htakes⟩ := readLoop_takes sh.buffer.toNat (by norm_num : 20 ≤ 2 ^ 64) 0 (view s)
    (t.send (syscallMessage sh.logLevel 0))
  rw [hsize, Console.read, hecho] at hput
  rw [hecho] at hloop
  simp only [Option.some.injEq, Prod.mk.injEq, Nat.zero_add] at hput hloop
  obtain ⟨-, rfl, rfl⟩ := hput
  obtain ⟨rfl, rfl, -⟩ := hloop
  have hview := sees_view (KernelInv.run hready hrun).kernel
  have hplace : ∀ i < 20, address sh.buffer.toNat (0 + i) = sh.buffer.toNat + i := fun i hi => by
    rw [Nat.zero_add]
    exact Nat.mod_eq_of_lt (by omega)
  have hbyte : ∀ i < 20, loadByte s' (sh.buffer.toNat + i) = some (m₁ (sh.buffer.toNat + i)) := fun i hi => by
    obtain ⟨v, hv⟩ := Option.isSome_iff_exists.mp (hload i hi)
    rw [hsees _ (by omega), hv, Option.map_some]
  refine ⟨s', ?_, hrun', hleft', fun i hi => ?_, ?_, fun x hx hout => ?_⟩
  · rw [Shell.read, syscallParameters_read, Option.bind_eq_bind, log_handling _ (by norm_num), Option.bind_some,
      ← syscallParameters_read sh.handler 0 sh.buffer 20 sh.cpu]
    exact hhandle
  · have hchar := (htakes.characters i hi).2
    rw [hplace i (by omega)] at hchar
    rw [hbyte i (by omega), hchar]
    exact congrArg some (htyped.characters i hi)
  · have hend := (htakes.ended hlen).2
    rw [hplace _ hlen] at hend
    rw [hbyte _ hlen, hend]
  · rw [hsees x hx, hview x hx, Option.map_map]
    refine Option.map_congr fun v _ => htakes.frame x fun i hi => ?_
    rw [hplace i hi]
    omega

end Reading

section Printing

variable {text fmt : List UInt8} {args : List Arg} {n : ℕ}

lemma width_append (h : char '%' ∉ text) (hwidth : Width fmt args n) :
    Width (text ++ fmt) args (text.length + n) := by
  induction text with
  | nil => rwa [List.nil_append, List.length_nil, Nat.zero_add]
  | cons c text ih =>
    rw [List.cons_append, List.length_cons, Nat.add_comm text.length 1, Nat.add_assoc]
    exact .plain c (List.ne_of_not_mem_cons h).symm (ih (List.not_mem_of_not_mem_cons h))

variable {chars : ℕ → Option UInt8} (h : TextAt chars 0 text)
include h

lemma width_gotInput : Width (gotInput ++ [char '%', char 's', char '\n']) [.pointer chars] (25 + text.length) := by
  have hcount : 25 + text.length = gotInput.length + (text.length + (1 + 0)) := by
    rw [show gotInput.length = 24 by rfl]
    omega
  have hchars := h.characters
  have hend := h.ended
  simp only [Nat.zero_add] at hchars hend
  rw [hcount]
  exact width_append (by decide) (.string chars text hchars h.nonzero hend (.plain _ (by decide) (.nil [])))

lemma kernelVprintf_gotInput (hlen : text.length ≤ intMax) :
    kernelVprintf (gotInput ++ [char '%', char 's', char '\n']) [.pointer chars] =
      some ([], gotInput ++ (text ++ [char '\n'])) := by
  refine kernelVprintf_append (by decide) fun out => ?_
  rw [vprintf_string, printString_eq putChar hlen h.characters h.nonzero h.ended, emitAll_putChar, Option.bind_some,
    vprintf_plain _ _ _ _ (by decide), putChar, Option.bind_some, vprintf, List.append_assoc]

end Printing

section Tests

variable {text : List UInt8}

lemma Shell.test_eq (sh : Shell) (x : Session) {command : List UInt8} (hcommand : TextAt (literal command) 0 command)
    (h : TextAt (sh.chars x) 0 text) (b : Builtin) :
    sh.test command b x = if text = command then sh.builtin b x else some x := by
  have hcompare := strcmp_eq h hcommand (by omega : min text.length command.length < command.length + 1)
  simp only [Shell.test, hcompare, Option.bind_eq_bind, Option.bind_some, Libc.orderOf_eq_zero_iff]

lemma textAt_pwd : TextAt (literal pwdText) 0 pwdText := .of_notMem (by decide) (by decide) (by decide)

lemma textAt_ls : TextAt (literal lsText) 0 lsText := .of_notMem (by decide) (by decide) (by decide)

lemma LineIn.textAt {buffer : ℕ} {s s' : State Frames} (h : LineIn buffer text s s')
    (hbuffer : buffer + 20 ≤ 2 ^ 47) (hlen : text.length < 20) {s'' : State Frames}
    (hsame : ∀ i < 20, loadByte s'' (buffer + i) = loadByte s' (buffer + i)) :
    TextAt (fun i => loadByte s'' (address buffer i)) 0 (untilZero text) := by
  have hplace : ∀ i < 20, loadByte s'' (address buffer i) = loadByte s' (buffer + i) := fun i hi => by
    rw [address, Nat.mod_eq_of_lt (by omega), hsame i hi]
  have htext : ∀ i (hi : i < text.length), loadByte s'' (address buffer i) = some text[i] := fun i hi => by
    rw [hplace i (by omega), h.characters i hi]
  obtain ⟨hchars, hend⟩ := string_untilZero htext (by rw [hplace _ hlen, h.ended])
  refine ⟨fun i hi => ?_, fun c => ne_zero_of_mem_untilZero, ?_⟩
  · rw [Nat.zero_add]
    exact hchars i hi
  · rw [Nat.zero_add]
    exact hend

end Tests

/-- For every line that is shorter than the buffer, in every state that the kernel can reach: the shell echoes the line,
prints what it got, up to a zero that was typed, and calls the function of the command that the line is, or none. -/
theorem shell_dispatches (sh : Shell) (m : Memory) (hready : Ready sh.img m) (s : State Frames) (blocks : List Block)
    (hrun : KernelRun sh.img m s blocks) (hoff : AllocatorsOff sh.logLevel) (hfuel : 2 < sh.fuel)
    (hleft : 8 ≤ framesLeft sh.img s.mem)
    (hbuffer : sh.buffer.toNat + 20 ≤ 2 ^ 47) (hload : ∀ i < 20, (loadByte s (sh.buffer.toNat + i)).isSome)
    (hbuffer' : sh.printfBuffer.toNat + 200 ≤ 2 ^ 47)
    (hload' : ∀ i < 200, (loadByte s (sh.printfBuffer.toNat + i)).isSome)
    (hapart : sh.buffer.toNat + 20 ≤ sh.printfBuffer.toNat ∨ sh.printfBuffer.toNat + 200 ≤ sh.buffer.toNat)
    (t : Terminal) (text : List UInt8) (htyped : Typed t text) (hlen : text.length < 20) : ∃ s' block,
    let x := (s', ((t.send (syscallMessage sh.logLevel 0)).after text).send
      (message sh.logLevel ++ gotInput ++ untilZero text ++ [char '\n']))
    KernelRun sh.img m s' (block :: blocks) ∧
    (∀ i (hi : i < text.length), loadByte s' (sh.buffer.toNat + i) = some text[i]) ∧
    sh.line (s, t) = if untilZero text = pwdText then (sh.builtin .pwd x).bind (sh.test lsText .ls)
      else if untilZero text = lsText then sh.builtin .ls x else some x := by
  obtain ⟨s₁, hread, hrun₁, hleft₁, hline⟩ := Shell.read_line hready hrun htyped hlen hbuffer hload
  have hchars : TextAt (sh.chars (s₁, (t.send (syscallMessage sh.logLevel 0)).after text)) 0 (untilZero text) :=
    hline.textAt hbuffer hlen fun _ _ => rfl
  have hshort : (untilZero text).length ≤ text.length := (List.takeWhile_prefix _).length_le
  obtain ⟨s₂, block, bytes, rest, hbytes, hprint, hrun₂, -, hsame, -⟩ := userPrintf_run hready hrun₁ sh.others
    sh.handler sh.printfBuffer sh.cpu hoff (width_gotInput hchars) (by omega) hbuffer'
    (fun i hi => by rw [hline.others _ (by omega) (by omega)]; exact hload' i hi) hfuel (by omega)
  rw [kernelVprintf_gotInput hchars (by rw [intMax]; omega), Option.some.injEq, Prod.mk.injEq] at hbytes
  obtain ⟨-, rfl⟩ := hbytes
  have hnonzero : untilZero (gotInput ++ (untilZero text ++ [char '\n'])) =
      gotInput ++ (untilZero text ++ [char '\n']) := by
    rw [untilZero_eq_self_iff]
    simp only [List.mem_append, List.mem_singleton]
    rintro c (hc | hc | rfl)
    · exact ne_of_mem_of_not_mem hc (by decide)
    · exact ne_zero_of_mem_untilZero hc
    · decide
  rw [hnonzero] at hprint
  have hkept : ∀ i < 20, loadByte s₂ (sh.buffer.toNat + i) = loadByte s₁ (sh.buffer.toNat + i) := fun i hi =>
    hsame _ (by omega) (by omega)
  have htext := hline.textAt hbuffer hlen hkept
  refine ⟨s₂, block, hrun₂, fun i hi => (hkept i (by omega)).trans (hline.characters i hi), ?_⟩
  have hpwd := fun t => Shell.test_eq sh (s₂, t) textAt_pwd htext .pwd
  have hls := fun t => Shell.test_eq sh (s₂, t) textAt_ls htext .ls
  simp only [Shell.line, hread, Shell.printf, hprint, Option.bind_eq_bind, Option.bind_some, List.append_assoc, hpwd]
  split_ifs with h₁ h₂
  · rfl
  · rw [Option.bind_some, hls, if_pos h₂]
  · rw [Option.bind_some, hls, if_neg h₂]

section Examples

def smallShell : Shell where
  img := megabyteImage
  others _ _ := none
  fuel := 3
  logLevel := 0
  handler := 0x80001000
  cpu := beforeSwitch
  printfBuffer := 0x10100
  buffer := 0x10000
  builtin _ x := some x

theorem shell_dispatches_ls : ∃ s s' t', KernelRun megabyteImage (fun _ => 0) s [] ∧
    smallShell.line (s, typed ['l', 's'] '\r') = smallShell.builtin .ls (s', t') ∧
    t'.output = lsText ++ [char '\n'] ++ gotInput ++ lsText ++ [char '\n'] := by
  obtain ⟨s, hrun, hload, hframes⟩ := buffer_page (n := 0x200) (by norm_num)
  have htyped : Typed (typed ['l', 's'] '\r') lsText :=
    ⟨by decide, fun _ hc => ne_of_mem_of_not_mem hc (by decide), by decide⟩
  have hprintf : ∀ i < 200, (loadByte s ((0x10100 : Word).toNat + i)).isSome := fun i hi => by
    have hplace : (0x10100 : Word).toNat + i = 0x10000 + (0x100 + i) := by
      rw [show (0x10100 : Word).toNat = 0x10100 by rfl]
      omega
    rw [hplace]
    exact hload _ (by omega)
  obtain ⟨s', block, -, -, hline⟩ := shell_dispatches smallShell _ megabyteImage_ready s [] hrun (by decide) (by decide)
    (le_trans (by norm_num) hframes) (by decide) (fun i hi => hload i (by omega)) (by decide)
    (fun i hi => hprintf i hi) (by decide) _ lsText htyped (by decide)
  refine ⟨s, s', _, hrun, hline.trans ((if_neg (by decide)).trans (if_pos (by decide))), by decide⟩

end Examples

end TetraOS.Console
