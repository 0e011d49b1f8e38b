import Mathlib.Tactic
import Mathlib.Logic.Relation
import TetraOS.Library.ByteMemory

/-! The requests of the block driver (`basic_op` of kernel/drivers/virtio/blk.cpp) and a device that follows the
virtio rules, as one transition system. The driver reaches the memory through the page table of the kernel, the device
by physical addresses. -/

namespace TetraOS.Drivers.Virtqueue

open Relation Library.ByteMemory

/-- The frames of the pages, and the physical addresses of the bytes of the queue. -/
structure Layout where
  frame : ℕ → ℕ
  queue : Set ℕ

/-- `get_physical_address_of_virtual_address`. -/
abbrev Layout.physical (l : Layout) : ℕ → ℕ := paged l.frame

def Layout.InPiece (l : Layout) (a n : ℕ) : Prop := ∀ i < n, l.physical (a + i) = l.physical a + i

structure Desc where
  addr : ℕ
  len : ℕ
  flags : ℕ
  next : ℕ

structure Header where
  type : ℕ
  sector : ℕ
deriving DecidableEq

def descNext : ℕ := 1
def descWrite : ℕ := 2
def queueSize : ℕ := 256

def pending : UInt8 := 0x12

/-- The physical memory. The queue in it is kept by its fields, the rest by its bytes. -/
structure Shared where
  desc : ℕ → Desc
  idx : ℕ
  ring : ℕ → ℕ
  bytes : Memory

namespace Shared

variable (m : Shared)

def setDesc (i : ℕ) (f : Desc → Desc) : Shared := { m with desc := Function.update m.desc i (f (m.desc i)) }

/-- A store of the driver, at a virtual address. -/
def setBytes (l : Layout) (n a v : ℕ) : Shared := { m with bytes := storePaged l.frame m.bytes n a v }

def headerAt (a : ℕ) : Header := ⟨load m.bytes 4 a, load m.bytes 8 (a + 8)⟩

end Shared

/-- The arguments of `basic_op`, and the address of its new `VirtIOBlkRequest`. -/
structure Call where
  sector : ℕ
  length : ℕ
  buffer : ℕ
  type : ℕ
  request : ℕ

structure Request where
  type : ℕ
  sector : ℕ
  buffer : ℕ
  length : ℕ
  status : ℕ
deriving DecidableEq

namespace Call

variable (l : Layout) (c : Call)

def Accepted : Prop := c.length % 512 = 0 ∧ (c.type = 0 ∨ c.type = 1)

def headerAddr : ℕ := l.physical c.request
def statusAddr : ℕ := l.physical (c.request + 528)
def bufferAddr : ℕ := l.physical c.buffer

def asRequest : Request := ⟨c.type, c.sector, c.bufferAddr l, c.length, c.statusAddr l⟩

/-- The header is in one physical piece, and the memory that the device takes for the buffer has neither the status
byte nor the queue in it. -/
structure Whole : Prop where
  header : l.InPiece c.request 16
  status : ∀ i < c.length, c.statusAddr l ≠ c.bufferAddr l + i
  queue : ∀ i < c.length, c.bufferAddr l + i ∉ l.queue

/-- The statements of `basic_op` before it makes the request available. -/
def setup : List (Shared → Shared) :=
  [fun m => m.setBytes l 4 c.request c.type,
   fun m => m.setBytes l 8 (c.request + 8) (c.sector % 2 ^ 32),
   fun m => m.setBytes l 1 (c.request + 528) 0x12,
   fun m => m.setDesc 0 fun d => { d with addr := c.headerAddr l },
   fun m => m.setDesc 0 fun d => { d with len := 16 },
   fun m => m.setDesc 0 fun d => { d with flags := descNext },
   fun m => m.setDesc 0 fun d => { d with next := 1 },
   fun m => m.setDesc 1 fun d => { d with addr := c.bufferAddr l },
   fun m => m.setDesc 1 fun d => { d with len := c.length % 2 ^ 32 },
   fun m => m.setDesc 1 fun d => { d with next := 2 },
   fun m => m.setDesc 1 fun d => { d with flags := if c.type = 1 then descNext else descNext ||| descWrite },
   fun m => m.setDesc 2 fun d => { d with addr := c.statusAddr l },
   fun m => m.setDesc 2 fun d => { d with len := 1 },
   fun m => m.setDesc 2 fun d => { d with flags := descWrite },
   fun m => { m with ring := Function.update m.ring (m.idx % queueSize) 0 }]

end Call

def runAll (todo : List (Shared → Shared)) (m : Shared) : Shared := todo.foldl (fun m w => w m) m

inductive Driver where
  | idle
  | preparing (c : Call) (todo : List (Shared → Shared))
  | notifying (c : Call)
  | waiting (c : Call)

namespace Driver

def call : Driver → Option Call
  | .idle => none
  | .preparing c _ => some c
  | .notifying c => some c
  | .waiting c => some c

end Driver

/-- What the device is about: following a chain from its head, reading the header, or moving the data. -/
inductive Phase where
  | idle
  | fetching (head : ℕ) (chain : List Desc) (next : ℕ)
  | fetched (head : ℕ) (chain : List Desc)
  | transferring (head : ℕ) (header : Header) (data status : Desc) (done : ℕ)

def follow (head : ℕ) (chain : List Desc) (d : Desc) : Phase :=
  if d.flags &&& descNext = 0 then .fetched head (chain ++ [d]) else .fetching head (chain ++ [d]) d.next

structure UsedElem where
  id : ℕ
  len : ℕ

structure System where
  shared : Shared
  driver : Driver
  counter : ℕ
  phase : Phase
  unpublished : List UsedElem
  usedIdx : ℕ
  usedRing : ℕ → UsedElem
  disk : ℕ → UInt8
  issued : List Request
  executed : List Request

structure Initial (s : System) : Prop where
  idx : s.shared.idx = 0
  counter : s.counter = 0
  driver : s.driver = .idle
  phase : s.phase = .idle
  unpublished : s.unpublished = []
  issued : s.issued = []
  executed : s.executed = []

def System.moveByte (s : System) (type address position : ℕ) : System :=
  if type = 0 then
    { s with shared := { s.shared with bytes := Function.update s.shared.bytes address (s.disk position) } }
  else { s with disk := Function.update s.disk position (s.shared.bytes address) }

section MoveByte

variable (s : System) (type address position : ℕ)

@[simp] lemma moveByte_desc : (s.moveByte type address position).shared.desc = s.shared.desc := by
  rw [System.moveByte]; split <;> rfl

@[simp] lemma moveByte_idx : (s.moveByte type address position).shared.idx = s.shared.idx := by
  rw [System.moveByte]; split <;> rfl

@[simp] lemma moveByte_driver : (s.moveByte type address position).driver = s.driver := by
  rw [System.moveByte]; split <;> rfl

@[simp] lemma moveByte_counter : (s.moveByte type address position).counter = s.counter := by
  rw [System.moveByte]; split <;> rfl

@[simp] lemma moveByte_issued : (s.moveByte type address position).issued = s.issued := by
  rw [System.moveByte]; split <;> rfl

@[simp] lemma moveByte_executed : (s.moveByte type address position).executed = s.executed := by
  rw [System.moveByte]; split <;> rfl

@[simp] lemma moveByte_unpublished : (s.moveByte type address position).unpublished = s.unpublished := by
  rw [System.moveByte]; split <;> rfl

lemma moveByte_bytes {x : ℕ} (h : x ≠ address) :
    (s.moveByte type address position).shared.bytes x = s.shared.bytes x := by
  rw [System.moveByte]
  split
  · exact Function.update_of_ne h _ _
  · rfl

end MoveByte

/-- A step of the driver or of the device. The loop on the status byte only leaves a trace when it ends. A byte of a
transfer that comes to lie on the queue leaves it with any fields. -/
inductive Step (l : Layout) : System → System → Prop
  | refuse {s} (c : Call) (hdriver : s.driver = .idle) (hc : ¬ c.Accepted) : Step l s s
  | call {s} (c : Call) (hdriver : s.driver = .idle) (hc : c.Accepted) (hsector : c.sector < 2 ^ 32)
      (hlength : c.length < 2 ^ 32) : Step l s
      { s with driver := .preparing c (c.setup l), issued := s.issued ++ [c.asRequest l] }
  | other {s} (bytes : Memory) (hdriver : s.driver = .idle) :
      Step l s { s with shared := { s.shared with bytes := bytes } }
  | store {s} (c : Call) (w : Shared → Shared) (todo : List (Shared → Shared))
      (hdriver : s.driver = .preparing c (w :: todo)) :
      Step l s { s with driver := .preparing c todo, shared := w s.shared }
  | available {s} (c : Call) (hdriver : s.driver = .preparing c []) : Step l s
      { s with driver := .notifying c, shared := { s.shared with idx := (s.shared.idx + 1) % 2 ^ 16 } }
  | notify {s} (c : Call) (hdriver : s.driver = .notifying c) : Step l s { s with driver := .waiting c }
  | finish {s} (c : Call) (hdriver : s.driver = .waiting c) (hstatus : s.shared.bytes (c.statusAddr l) ≠ pending) :
      Step l s { s with driver := .idle }
  | take {s} (hphase : s.phase = .idle) (hcounter : s.counter ≠ s.shared.idx) : Step l s
      { s with
        phase := .fetching (s.shared.ring (s.counter % queueSize)) [] (s.shared.ring (s.counter % queueSize)),
        counter := (s.counter + 1) % 2 ^ 16 }
  | readDesc {s} (head : ℕ) (chain : List Desc) (next : ℕ) (hphase : s.phase = .fetching head chain next) : Step l s
      { s with phase := follow head chain (s.shared.desc next) }
  | readHeader {s} (head : ℕ) (d₀ d₁ d₂ : Desc) (hphase : s.phase = .fetched head [d₀, d₁, d₂]) :
      Step l s { s with phase := .transferring head (s.shared.headerAt d₀.addr) d₁ d₂ 0 }
  | transfer {s} (head : ℕ) (header : Header) (data status : Desc) (done : ℕ)
      (hphase : s.phase = .transferring head header data status done) (hdone : done < data.len) : Step l s
      { s.moveByte header.type (data.addr + done) (512 * header.sector + done) with
        phase := .transferring head header data status (done + 1) }
  | overwrite {s} (head : ℕ) (header : Header) (data status : Desc) (done : ℕ) (desc : ℕ → Desc) (idx : ℕ)
      (ring : ℕ → ℕ) (hphase : s.phase = .transferring head header data status done) (hdone : done < data.len)
      (htype : header.type = 0) (hqueue : data.addr + done ∈ l.queue) : Step l s
      { s with
        phase := .transferring head header data status (done + 1),
        shared := { s.shared with desc := desc, idx := idx, ring := ring } }
  | answer {s} (head : ℕ) (header : Header) (data status : Desc) (v : UInt8) (written : ℕ)
      (hphase : s.phase = .transferring head header data status data.len) (hv : v ∈ ({0, 1, 2} : Set UInt8)) : Step l s
      { s with
        phase := .idle,
        shared := { s.shared with bytes := Function.update s.shared.bytes status.addr v },
        unpublished := s.unpublished ++ [⟨head, written⟩],
        executed := s.executed ++ [⟨header.type, header.sector, data.addr, data.len, status.addr⟩] }
  | use {s} (e : UsedElem) (rest : List UsedElem) (h : s.unpublished = e :: rest) : Step l s
      { s with
        unpublished := rest,
        usedRing := Function.update s.usedRing (s.usedIdx % queueSize) e,
        usedIdx := (s.usedIdx + 1) % 2 ^ 16 }

/-- A step after which the call under way, if there is one, hands out its memory in one piece. -/
def WholeStep (l : Layout) (s s' : System) : Prop := Step l s s' ∧ ∀ c, s'.driver.call = some c → c.Whole l

def Returns (l : Layout) (c : Call) (s s' : System) : Prop :=
  Step l s s' ∧ s.driver = .waiting c ∧ s'.driver = .idle

end TetraOS.Drivers.Virtqueue
