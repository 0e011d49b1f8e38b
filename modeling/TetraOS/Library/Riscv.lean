import TetraOS.Library.ByteMemory

/-! Straight-line RISC-V code: 64-bit registers, control and status registers, and the instructions that compute
addresses and save and restore a context. -/

namespace TetraOS.Library.Riscv

open ByteMemory

abbrev Word := BitVec 64

inductive Reg where
  | zero | ra | sp | t (i : Fin 7) | s (i : Fin 12) | a (i : Fin 8)
  deriving DecidableEq

-- The registers of a family are written as numbers.
instance neZero_seven : NeZero 7 := ⟨by decide⟩
instance neZero_eight : NeZero 8 := ⟨by decide⟩
instance neZero_twelve : NeZero 12 := ⟨by decide⟩

inductive Csr where
  | mcause | mepc | mstatus | mtvec | satp | sepc | sscratch | sstatus | stvec
  deriving DecidableEq

structure Cpu where
  regs : Reg → Word
  csrs : Csr → Word
  pc : Word
  mem : Memory

inductive Instr where
  | add (rd rs₁ rs₂ : Reg)
  | mul (rd rs₁ rs₂ : Reg)
  | or (rd rs₁ rs₂ : Reg)
  | and (rd rs₁ rs₂ : Reg)
  | not (rd rs : Reg)
  | addi (rd rs : Reg) (imm : ℤ)
  | andi (rd rs : Reg) (imm : ℤ)
  | slli (rd rs : Reg) (shift : ℕ)
  | srli (rd rs : Reg) (shift : ℕ)
  | lui (rd : Reg) (imm : ℕ)
  | la (rd : Reg) (address : Word)
  | csrr (rd : Reg) (csr : Csr)
  | csrw (csr : Csr) (rs : Reg)
  | sd (rs : Reg) (offset : ℕ) (base : Reg)
  | ld (rd : Reg) (offset : ℕ) (base : Reg)
  | mret
  | sret

namespace Cpu

variable (c : Cpu)

def get (r : Reg) : Word := if r = .zero then 0 else c.regs r

def set (r : Reg) (v : Word) : Cpu := { c with regs := Function.update c.regs r v }

def setCsr (r : Csr) (v : Word) : Cpu := { c with csrs := Function.update c.csrs r v }

def address (base : Reg) (offset : ℕ) : ℕ := (c.get base + BitVec.ofNat 64 offset).toNat

end Cpu

def step (c : Cpu) : Instr → Cpu
  | .add rd rs₁ rs₂ => c.set rd (c.get rs₁ + c.get rs₂)
  | .mul rd rs₁ rs₂ => c.set rd (c.get rs₁ * c.get rs₂)
  | .or rd rs₁ rs₂ => c.set rd (c.get rs₁ ||| c.get rs₂)
  | .and rd rs₁ rs₂ => c.set rd (c.get rs₁ &&& c.get rs₂)
  | .not rd rs => c.set rd (~~~ c.get rs)
  | .addi rd rs imm => c.set rd (c.get rs + BitVec.ofInt 64 imm)
  | .andi rd rs imm => c.set rd (c.get rs &&& BitVec.ofInt 64 imm)
  | .slli rd rs shift => c.set rd (c.get rs <<< shift)
  | .srli rd rs shift => c.set rd (c.get rs >>> shift)
  | .lui rd imm => c.set rd ((BitVec.ofNat 32 (imm * 4096)).signExtend 64)
  | .la rd address => c.set rd address
  | .csrr rd csr => c.set rd (c.csrs csr)
  | .csrw csr rs => c.setCsr csr (c.get rs)
  | .sd rs offset base => { c with mem := store c.mem 8 (c.address base offset) (c.get rs).toNat }
  | .ld rd offset base => c.set rd (BitVec.ofNat 64 (load c.mem 8 (c.address base offset)))
  | .mret => { c with pc := c.csrs .mepc }
  | .sret => { c with pc := c.csrs .sepc }

def exec (code : List Instr) (c : Cpu) : Cpu := code.foldl step c

section Simp

variable {c : Cpu} {r r' : Reg} {v : Word}

@[simp] lemma exec_nil : exec [] c = c := rfl

@[simp] lemma exec_cons (i : Instr) (code : List Instr) : exec (i :: code) c = exec code (step c i) := rfl

lemma exec_append (code code' : List Instr) : exec (code ++ code') c = exec code' (exec code c) :=
  List.foldl_append

@[simp] lemma get_zero : c.get .zero = 0 := rfl

lemma get_set : (c.set r v).get r' = if r' = .zero then 0 else if r' = r then v else c.get r' := by
  simp only [Cpu.get, Cpu.set, Function.update_apply]
  split_ifs <;> rfl

lemma get_set_self (h : r ≠ .zero) : (c.set r v).get r = v := by rw [get_set, if_neg h, if_pos rfl]

lemma get_set_ne (h : r' ≠ r) : (c.set r v).get r' = c.get r' := by
  rw [get_set, if_neg h]
  split_ifs with hz
  · rw [hz, get_zero]
  · rfl

@[simp] lemma csrs_set : (c.set r v).csrs = c.csrs := rfl
@[simp] lemma mem_set : (c.set r v).mem = c.mem := rfl
@[simp] lemma get_setCsr {k : Csr} : (c.setCsr k v).get r = c.get r := rfl
@[simp] lemma mem_setCsr {k : Csr} : (c.setCsr k v).mem = c.mem := rfl
lemma get_sd {offset : ℕ} {base : Reg} : (step c (.sd r' offset base)).get r = c.get r := rfl
@[simp] lemma csrs_setCsr {k : Csr} : (c.setCsr k v).csrs = Function.update c.csrs k v := rfl

end Simp

def Instr.dest : Instr → Option Reg
  | .add rd _ _ | .mul rd _ _ | .or rd _ _ | .and rd _ _ | .not rd _ | .addi rd _ _ | .andi rd _ _ | .slli rd _ _
  | .srli rd _ _ | .lui rd _ | .la rd _ | .csrr rd _ | .ld rd _ _ => some rd
  | .csrw _ _ | .sd _ _ _ | .mret | .sret => none

def Instr.csrDest : Instr → Option Csr
  | .csrw csr _ => some csr
  | _ => none

section Frames

variable {r : Reg} {k : Csr} {i : Instr} {code : List Instr}

lemma step_get (h : i.dest ≠ some r) (c : Cpu) : (step c i).get r = c.get r := by
  cases i with
  | csrw | sd | mret | sret => rfl
  | _ => exact get_set_ne fun heq => h (congrArg some heq.symm)

lemma step_csrs (h : i.csrDest ≠ some k) (c : Cpu) : (step c i).csrs k = c.csrs k := by
  cases i with
  | csrw csr rs => exact Function.update_of_ne (fun heq => h (congrArg some heq.symm)) _ _
  | _ => rfl

lemma exec_get (h : ∀ i ∈ code, i.dest ≠ some r) (c : Cpu) : (exec code c).get r = c.get r := by
  induction code generalizing c with
  | nil => rfl
  | cons i code ih =>
    rw [exec_cons, ih (fun j hj => h j (List.mem_cons_of_mem i hj)), step_get (h i List.mem_cons_self)]

lemma exec_csrs (h : ∀ i ∈ code, i.csrDest ≠ some k) (c : Cpu) : (exec code c).csrs k = c.csrs k := by
  induction code generalizing c with
  | nil => rfl
  | cons i code ih =>
    rw [exec_cons, ih (fun j hj => h j (List.mem_cons_of_mem i hj)), step_csrs (h i List.mem_cons_self)]

end Frames

def saves (base : Reg) {n : ℕ} (r : Fin n → Reg) : List Instr :=
  (List.finRange n).map fun i => .sd (r i) (8 * i) base

def restores (base : Reg) {n : ℕ} (r : Fin n → Reg) : List Instr :=
  (List.finRange n).map fun i => .ld (r i) (8 * i) base

section Banks

variable {base : Reg} {n : ℕ} {r : Fin n → Reg}

lemma exec_saves (base : Reg) (r : Fin n → Reg) (c : Cpu) : ∃ m, exec (saves base r) c = { c with mem := m } := by
  have hlist : ∀ (l : List (Fin n)) (c : Cpu), ∃ m, exec (l.map fun i => .sd (r i) (8 * i) base) c =
    { c with mem := m } := by
    intro l
    induction l with
    | nil => exact fun c => ⟨c.mem, rfl⟩
    | cons i l ih =>
      intro c
      obtain ⟨m, hm⟩ := ih (step c (.sd (r i) (8 * i) base))
      exact ⟨m, by rw [List.map_cons, exec_cons, hm]; rfl⟩
  exact hlist _ c

lemma exec_restores (c : Cpu) (hbase : ∀ i, r i ≠ base) (hzero : ∀ i, r i ≠ .zero) (hinj : Function.Injective r) :
    ∃ c', exec (restores base r) c = c' ∧ c'.csrs = c.csrs ∧ c'.pc = c.pc ∧ c'.mem = c.mem ∧
      (∀ i, c'.get (r i) = BitVec.ofNat 64 (load c.mem 8 (c.address base (8 * i)))) ∧
      ∀ q, (∀ i, q ≠ r i) → c'.get q = c.get q := by
  have hlist : ∀ (l : List (Fin n)) (c : Cpu), ∃ c', exec (l.map fun i => .ld (r i) (8 * i) base) c = c' ∧
      c'.csrs = c.csrs ∧ c'.pc = c.pc ∧ c'.mem = c.mem ∧
      (∀ i, c'.get (r i) = if i ∈ l then BitVec.ofNat 64 (load c.mem 8 (c.address base (8 * i))) else c.get (r i)) ∧
      ∀ q, (∀ i, q ≠ r i) → c'.get q = c.get q := by
    intro l
    induction l with
    | nil => exact fun c => ⟨c, rfl, rfl, rfl, rfl, fun i => by rw [if_neg (List.not_mem_nil)], fun _ _ => rfl⟩
    | cons i l ih =>
      intro c
      obtain ⟨c', hexec, hcsrs, hpc, hmem, hregs, hrest⟩ := ih (step c (.ld (r i) (8 * i) base))
      have haddr : ∀ k, (step c (.ld (r i) (8 * i) base)).address base k = c.address base k := by
        intro k
        rw [Cpu.address, Cpu.address, step, get_set_ne (hbase i).symm]
      refine ⟨c', hexec, hcsrs, hpc, hmem, fun j => ?_, fun q hq => ?_⟩
      · rw [hregs j]
        by_cases hj : j ∈ l
        · rw [if_pos hj, if_pos (List.mem_cons_of_mem i hj), haddr]
          rfl
        · rw [if_neg hj, step]
          by_cases hi : j = i
          · rw [hi, if_pos List.mem_cons_self, get_set_self (hzero i)]
          · rw [if_neg (by simp [hi, hj]), get_set_ne (fun hh => hi (hinj hh))]
      · rw [hrest q hq, step, get_set_ne (hq i)]
  obtain ⟨c', hexec, hcsrs, hpc, hmem, hregs, hrest⟩ := hlist (List.finRange n) c
  refine ⟨c', hexec, hcsrs, hpc, hmem, fun i => ?_, hrest⟩
  rw [hregs i, if_pos (List.mem_finRange i)]

end Banks

end TetraOS.Library.Riscv
