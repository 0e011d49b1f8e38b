import TetraOS.Console.Write

/-! Line input, from the library of the programs (tlibc/syscalls/read.c) to the UART (kernel/libk/read.cpp,
kernel/UART.cpp), and the strings that the shell takes the lines for (userspace/shell/shell.c, tlibc/string.c). -/

namespace TetraOS.Console

open Memory Processes Library.ByteMemory Library.Riscv PhysicalAllocator

structure Terminal where
  input : ℕ → UInt8
  output : List UInt8

namespace Terminal

def getChar (t : Terminal) : UInt8 × Terminal := (t.input 0, { t with input := fun i => t.input (i + 1) })

def putChar (t : Terminal) (c : UInt8) : Terminal := { t with output := t.output ++ [c] }

end Terminal

def address (buffer i : ℕ) : ℕ := (buffer + i) % 2 ^ 64

section Read

variable {σ : Type} (storeByte : σ → ℕ → UInt8 → Option σ)

/-- The loop of `read`, with `room` places left in the buffer. -/
def readLoop (buffer : ℕ) : (room counter : ℕ) → σ → Terminal → Option (ℕ × σ × Terminal)
  | 0, counter, s, t => some (counter, s, t)
  | room + 1, counter, s, t =>
    let (c, t) := t.getChar
    if c = char '\r' then do
      let s ← storeByte s (address buffer counter) 0
      some (counter, s, t.putChar (char '\n'))
    else do
      let t := t.putChar c
      let s ← storeByte s (address buffer counter) c
      readLoop buffer room (counter + 1) s t

def read (buffer size : ℕ) : σ → Terminal → Option (ℕ × σ × Terminal) := readLoop storeByte buffer size 0

/-- Case 0 of `handle_syscall`. The count is dropped. -/
def handleRead (params : SyscallParameters) (s : σ) (t : Terminal) : Option (σ × Terminal) :=
  (read storeByte params.a1 params.a2 s t).map Prod.snd

end Read

/-- `read` of the library up to its `ecall`. It returns 0 to the program, whatever was read. -/
def tlibcRead (fd buf nbyte : Word) (c : Cpu) : Cpu :=
  exec (tlibcSyscall 0) ((((c.set (.a 0) 0).set (.a 1) fd).set (.a 2) buf).set (.a 3) nbyte)

def put (m : Memory) (a : ℕ) (b : UInt8) : Option Memory := some (Function.update m a b)

def charsAt (m : Memory) (buffer i : ℕ) : Option UInt8 := some (m (address buffer i))

def strcmp (s1 s2 : ℕ → Option UInt8) : (fuel index : ℕ) → Option ℤ
  | 0, _ => none
  | fuel + 1, index => do
    let a ← s1 index
    let b ← s2 index
    if a ≠ 0 ∧ b ≠ 0 then
      if a ≠ b then some (if a < b then -1 else 1) else strcmp s1 s2 fuel (index + 1)
    else if a ≠ 0 ∧ b = 0 then some 1
    else if a = 0 ∧ b ≠ 0 then some (-1)
    else some 0

def ReadsBelow {β : Type} (n : ℕ) (f : (ℕ → Option UInt8) → β) (chars : ℕ → Option UInt8) : Prop :=
  ∀ chars', (∀ i < n, chars' i = chars i) → f chars' = f chars

/-- What the shell takes for granted of a buffer after `read` has returned `n`. -/
structure IsLine (input : ℕ → UInt8) (m m' : Memory) (buffer size n : ℕ) : Prop where
  frame : ∀ x, (∀ i < size, x ≠ address buffer i) → m' x = m x
  characters : ∀ i < n, m' (address buffer i) = input i
  terminated : n < size ∧ m' (address buffer n) = 0
  strcmp : ∀ s2 fuel, ReadsBelow size (fun s1 => strcmp s1 s2 fuel 0) (charsAt m' buffer)
  printf : ∀ {σ : Type} (emit : σ → UInt8 → Option σ) fmt args out,
    ReadsBelow size (fun s => vprintf emit (char '%' :: char 's' :: fmt) (.pointer s :: args) out) (charsAt m' buffer)

section Strings

variable {chars chars' s2 : ℕ → Option UInt8} {k : ℕ} (hagree : ∀ i ≤ k, chars' i = chars i) (hzero : chars k = some 0)
include hagree hzero

lemma strcmp_congr (fuel : ℕ) {index : ℕ} (hi : index ≤ k) :
    strcmp chars' s2 fuel index = strcmp chars s2 fuel index := by
  induction fuel generalizing index with
  | zero => rfl
  | succ fuel ih =>
    rw [strcmp, strcmp, hagree index hi]
    rcases hi.eq_or_lt with rfl | hlt
    · rw [hzero]
      rfl
    · rw [ih hlt]

lemma printString_congr {σ : Type} (emit : σ → UInt8 → Option σ) {room current : ℕ} (hi : current ≤ k) (out : σ) :
    printString emit chars' room current out = printString emit chars room current out := by
  induction room generalizing current out with
  | zero => rw [printString, printString, hagree current hi]
  | succ room ih =>
    rw [printString, printString, hagree current hi]
    rcases hi.eq_or_lt with rfl | hlt
    · rw [hzero]
      rfl
    · simp only [ih hlt]

end Strings

section Loop

variable {buffer counter room : ℕ} {m : Memory} {input : ℕ → UInt8}

lemma address_ne {i j : ℕ} (hij : i < j) (hj : j < i + 2 ^ 64) : address buffer i ≠ address buffer j := by
  rw [address, address]
  omega

structure Takes (buffer counter room : ℕ) (input : ℕ → UInt8) (m m' : Memory) (k : ℕ) : Prop where
  le : k ≤ room
  frame : ∀ x, (∀ i < room, x ≠ address buffer (counter + i)) → m' x = m x
  characters : ∀ i < k, input i ≠ char '\r' ∧ m' (address buffer (counter + i)) = input i
  ended : k < room → input k = char '\r' ∧ m' (address buffer (counter + k)) = 0

lemma takes_return (hc : input 0 = char '\r') :
    Takes buffer counter (room + 1) input m (Function.update m (address buffer counter) 0) 0 where
  le := Nat.zero_le _
  frame x hx := Function.update_of_ne (hx 0 (by omega)) 0 m
  characters i hi := absurd hi (Nat.not_lt_zero i)
  ended _ := ⟨hc, Function.update_self ..⟩

lemma Takes.cons {m' : Memory} {k : ℕ} (hroom : room < 2 ^ 64) (hc : input 0 ≠ char '\r')
    (h : Takes buffer (counter + 1) room (fun i => input (i + 1))
      (Function.update m (address buffer counter) (input 0)) m' k) :
    Takes buffer counter (room + 1) input m m' (k + 1) where
  le := Nat.succ_le_succ h.le
  frame x hx := by
    rw [h.frame x fun i hi => by rw [Nat.add_right_comm]; exact hx (i + 1) (by omega), Function.update_of_ne]
    exact hx 0 (by omega)
  characters i hi := by
    cases i with
    | zero =>
      refine ⟨hc, ?_⟩
      rw [Nat.add_zero, h.frame _ fun i hi => address_ne (by omega) (by omega), Function.update_self]
    | succ i =>
      have hh := h.characters i (by omega)
      rw [Nat.add_right_comm] at hh
      exact hh
  ended hk := by
    have hh := h.ended (by omega)
    rw [Nat.add_right_comm] at hh
    exact hh

variable (buffer) in
lemma readLoop_takes (hroom : room ≤ 2 ^ 64) (counter : ℕ) (m : Memory) (t : Terminal) :
    ∃ k m' t', readLoop put buffer room counter m t = some (counter + k, m', t') ∧
      Takes buffer counter room t.input m m' k := by
  induction room generalizing counter m t with
  | zero => exact ⟨0, m, t, rfl, le_rfl, fun _ _ => rfl, fun i hi => absurd hi (Nat.not_lt_zero i),
      fun hk => absurd hk (Nat.not_lt_zero 0)⟩
  | succ room ih =>
    rw [readLoop]
    by_cases hc : t.input 0 = char '\r'
    · exact ⟨0, _, _, if_pos hc, takes_return hc⟩
    · obtain ⟨k, m', t', hloop, htakes⟩ := ih (by omega) (counter + 1)
        (Function.update m (address buffer counter) (t.input 0)) (t.getChar.2.putChar (t.input 0))
      refine ⟨k + 1, m', t', ?_, htakes.cons (by omega) hc⟩
      refine (if_neg hc).trans (hloop.trans ?_)
      rw [Nat.add_right_comm, Nat.add_assoc]

end Loop

lemma syscallParameters_read (address fd buf nbyte : Word) (c : Cpu) :
    syscallParameters (exec (jumpToMachineExceptionHandler address) (ecall (tlibcRead fd buf nbyte c))) =
      ⟨fd.toNat, buf.toNat, nbyte.toNat, 0⟩ := by
  simp only [syscallParameters, get_a_jumpToMachineExceptionHandler, tlibcRead, tlibcSyscall, exec_cons, exec_nil,
    step, get_set]
  simp

section Program

variable {img : Image} {m₀ : Memory} {s s' : State Frames} {blocks : List Block} (hready : Ready img m₀)

def Sees (s s' : State Frames) (m : Memory) : Prop :=
  ∀ x < 2 ^ 47, loadByte s' x = (loadByte s x).map fun _ => m x

lemma sees_view {S : FrameSource Frames} (h : Kernel S s) : Sees s s (view s) := by
  intro x hx
  by_cases hm : Mapped s x
  · rw [loadByte_eq h.tree (usable_of_lower hx) hm]
    rfl
  · rw [loadByte_eq_none h.tree (usable_of_lower hx) hm]
    rfl

include hready

lemma store_sees {s₁ : State Frames} {m : Memory} (hrun : KernelRun img m₀ s₁ blocks) (hsees : Sees s s₁ m) {x : ℕ}
    (hx : x < 2 ^ 47) (hload : (loadByte s x).isSome) (b : UInt8) :
    ∃ s₂, storeByte s₁ x b = some s₂ ∧ KernelRun img m₀ s₂ blocks ∧
      framesLeft img s₂.mem = framesLeft img s₁.mem ∧ Sees s s₂ (Function.update m x b) := by
  have hload₁ : (loadByte s₁ x).isSome := by rwa [hsees x hx, Option.isSome_map]
  obtain ⟨s₂, hs₂, hrun₂, hleft₂, hloads⟩ := hrun.write_lower hready hx hload₁ b
  refine ⟨s₂, hs₂, hrun₂, hleft₂, fun y hy => ?_⟩
  rw [hloads y hy, hsees y hy, Option.map_map]
  simp only [Function.comp_def, Function.update_apply]

lemma readLoop_sees {buffer size : ℕ} (hbuf : buffer + size ≤ 2 ^ 47)
    (hload : ∀ i < size, (loadByte s (buffer + i)).isSome) {room counter : ℕ} (hsize : counter + room = size)
    {s₁ : State Frames} {m : Memory} (hrun : KernelRun img m₀ s₁ blocks) (hsees : Sees s s₁ m) (t : Terminal) :
    ∃ n s₂ m' t', readLoop storeByte buffer room counter s₁ t = some (n, s₂, t') ∧
      readLoop put buffer room counter m t = some (n, m', t') ∧ KernelRun img m₀ s₂ blocks ∧
      framesLeft img s₂.mem = framesLeft img s₁.mem ∧ Sees s s₂ m' := by
  induction room generalizing counter s₁ m t with
  | zero => exact ⟨counter, s₁, m, t, rfl, rfl, hrun, rfl, hsees⟩
  | succ room ih =>
    have hx : address buffer counter = buffer + counter := Nat.mod_eq_of_lt (by omega)
    have hstore := store_sees hready hrun hsees (by omega) (hload counter (by omega))
    rw [readLoop, readLoop, hx]
    by_cases hc : t.input 0 = char '\r'
    · obtain ⟨s₂, hs₂, hrun₂, hleft₂, hsees₂⟩ := hstore 0
      refine ⟨counter, s₂, _, _, (if_pos hc).trans ?_, if_pos hc, hrun₂, hleft₂, hsees₂⟩
      rw [hs₂]
      rfl
    · obtain ⟨s₂, hs₂, hrun₂, hleft₂, hsees₂⟩ := hstore (t.input 0)
      obtain ⟨n, s₃, m', t', hloop, hput, hrun₃, hleft₃, hsees₃⟩ :=
        ih (by omega : counter + 1 + room = size) hrun₂ hsees₂ (t.getChar.2.putChar (t.input 0))
      refine ⟨n, s₃, m', t', (if_neg hc).trans ?_, (if_neg hc).trans hput, hrun₃, hleft₃.trans hleft₂, hsees₃⟩
      refine (congrArg (fun r => Option.bind r _) hs₂).trans hloop

/-- In every state that the kernel can reach, `read(fd, buf, nbyte)` of a program does to the bytes of the program what
`read` does to a memory, and leads to a state that the kernel can reach. -/
theorem handleRead_sees (hrun : KernelRun img m₀ s blocks) (fd buf nbyte handler : Word) (c : Cpu) (t : Terminal)
    (hbuf : buf.toNat + nbyte.toNat ≤ 2 ^ 47) (hload : ∀ i < nbyte.toNat, (loadByte s (buf.toNat + i)).isSome) :
    ∃ n s' m' t', handleRead storeByte
        (syscallParameters (exec (jumpToMachineExceptionHandler handler) (ecall (tlibcRead fd buf nbyte c)))) s t =
          some (s', t') ∧
      read put buf.toNat nbyte.toNat (view s) t = some (n, m', t') ∧ KernelRun img m₀ s' blocks ∧
      framesLeft img s'.mem = framesLeft img s.mem ∧ Sees s s' m' := by
  obtain ⟨n, s', m', t', hstate, hput, hrun', hleft', hsees⟩ := readLoop_sees hready hbuf hload (Nat.zero_add _) hrun
    (sees_view (KernelInv.run hready hrun).kernel) t
  refine ⟨n, s', m', t', ?_, hput, hrun', hleft', hsees⟩
  rw [syscallParameters_read, handleRead, read, hstate]
  rfl

end Program

lemma strings_readsBelow {m : Memory} {buffer size n : ℕ} (hn : n < size) (hzero : m (address buffer n) = 0) :
    (∀ s2 fuel, ReadsBelow size (fun s1 => strcmp s1 s2 fuel 0) (charsAt m buffer)) ∧
    ∀ {σ : Type} (emit : σ → UInt8 → Option σ) fmt args out, ReadsBelow size
      (fun s => vprintf emit (char '%' :: char 's' :: fmt) (.pointer s :: args) out) (charsAt m buffer) := by
  have hend : charsAt m buffer n = some 0 := congrArg some hzero
  constructor
  · intro s2 fuel chars' hagree
    exact strcmp_congr (fun i hi => hagree i (by omega)) hend fuel (Nat.zero_le n)
  · intro σ emit fmt args out chars' hagree
    have hprint : printString emit chars' intMax 0 out = printString emit (charsAt m buffer) intMax 0 out :=
      printString_congr (fun i hi => hagree i (by omega)) hend emit (Nat.zero_le n) out
    simp only [vprintf_string, hprint]

/-- `read` always stores what it counts, inside the buffer. It ends the string only where it has found a carriage
return. -/
theorem read_isLine_iff (m : Memory) (t : Terminal) (buffer size : ℕ) (hsize : size < 2 ^ 64) :
    ∃ n m' t', read put buffer size m t = some (n, m', t') ∧ n ≤ size ∧
      (∀ x, (∀ i < size, x ≠ address buffer i) → m' x = m x) ∧ (∀ i < n, m' (address buffer i) = t.input i) ∧
      (IsLine t.input m m' buffer size n ↔ ∃ i < size, t.input i = char '\r') := by
  obtain ⟨n, m', t', hread, htakes⟩ := readLoop_takes buffer hsize.le 0 m t
  have hframe := htakes.frame
  have hchars := htakes.characters
  have hended := htakes.ended
  simp only [Nat.zero_add] at hread hframe hchars hended
  refine ⟨n, m', t', hread, htakes.le, hframe, fun i hi => (hchars i hi).2, fun h => ?_, ?_⟩
  · exact ⟨n, h.terminated.1, (hended h.terminated.1).1⟩
  · rintro ⟨i, hi, hreturn⟩
    have hn : n < size := by
      by_contra hfull
      exact (hchars i (by omega)).1 hreturn
    have hzero := (hended hn).2
    obtain ⟨hstrcmp, hprintf⟩ := strings_readsBelow hn hzero
    exact ⟨hframe, fun i hi => (hchars i hi).2, ⟨hn, hzero⟩, hstrcmp, hprintf⟩

def typed (line : List Char) (rest : Char) : Terminal := ⟨fun i => char (line.getD i rest), []⟩

theorem read_isLine_pwd : ∃ m' t',
    read put 0x10000 20 (fun _ => 0xFF) (typed ['p', 'w', 'd'] '\r') = some (3, m', t') ∧
    IsLine (typed ['p', 'w', 'd'] '\r').input (fun _ => 0xFF) m' 0x10000 20 3 := by
  obtain ⟨n, m', t', hread, _, _, _, hline⟩ :=
    read_isLine_iff (fun _ => 0xFF) (typed ['p', 'w', 'd'] '\r') 0x10000 20 (by decide)
  have hcount : (read put 0x10000 20 (fun _ => 0xFF) (typed ['p', 'w', 'd'] '\r')).map Prod.fst = some 3 := by decide
  rw [hread] at hcount
  obtain rfl : n = 3 := Option.some.inj hcount
  exact ⟨m', t', hread, hline.mpr ⟨3, by decide, by decide⟩⟩

def letters (behind : Option UInt8) (i : ℕ) : Option UInt8 := if i < 20 then some (char 'a') else behind

/-- A line as long as the buffer of the shell has no end, and its `printf` goes on behind the buffer. -/
theorem read_not_isLine_full : ∃ m' t', read put 0x10000 20 (fun _ => 0xFF) (typed [] 'a') = some (20, m', t') ∧
    ¬ IsLine (typed [] 'a').input (fun _ => 0xFF) m' 0x10000 20 20 ∧
    ¬ ReadsBelow 20 (fun s => tlibcVprintf (fun _ => 0) [char '%', char 's'] [.pointer s]) (charsAt m' 0x10000) := by
  obtain ⟨n, m', t', hread, htakes⟩ := readLoop_takes 0x10000 (by decide : 20 ≤ 2 ^ 64) 0 (fun _ => 0xFF)
    (typed [] 'a')
  have hn : n = 20 := by
    by_contra hne
    have hle := htakes.le
    exact absurd (htakes.ended (by omega)).1 (by decide : char 'a' ≠ char '\r')
  subst hn
  refine ⟨m', t', hread, fun h => absurd h.terminated.1 (lt_irrefl 20), fun h => ?_⟩
  have hagree : ∀ behind, ∀ i < 20, letters behind i = charsAt m' 0x10000 i := by
    intro behind i hi
    have hc := (htakes.characters i hi).2
    rw [Nat.zero_add] at hc
    rw [charsAt, hc]
    exact if_pos hi
  have hfault : tlibcVprintf (fun _ => 0) [char '%', char 's'] [.pointer (letters none)] = none := by rfl
  have hprint : (tlibcVprintf (fun _ => 0) [char '%', char 's'] [.pointer (letters (some 0))]).isSome := by rfl
  have hsame := congrArg Option.isSome ((h _ (hagree none)).trans (h _ (hagree (some 0))).symm)
  simp only [hfault, hprint] at hsame
  cases hsame

end TetraOS.Console
