import TetraOS.Console.Logging
import TetraOS.Memory.HeapGrowth

/-! What the allocators and `map_page` log (kernel/memory/physical_allocator.cpp, kernel/memory/paging.cpp,
kernel/memory/virtual_allocator.cpp). The calls of `log` are collected along the way that each function takes. -/

namespace TetraOS.Console

open Memory PhysicalAllocator FreeSpace VirtualPage PageTable

structure LogCall where
  level : LogLevel
  fmt : List UInt8
  args : List Arg

def printCalls (logLevel : ℕ) : List LogCall → Option (List UInt8)
  | [] => some []
  | call :: calls => do
    let line ← log logLevel call.level call.fmt call.args
    let lines ← printCalls logLevel calls
    some (line ++ lines)

section Calls

def allocatedFrame : List UInt8 := ['A', 'l', 'l', 'o', 'c', 'a', 't', 'e', 'd', ' ', 'f', 'r', 'a', 'm', 'e',
  ' '].map char

def atAddress : List UInt8 := [' ', 'a', 't', ' ', 'a', 'd', 'd', 'r', 'e', 's', 's', ' ', '0', 'x'].map char

def mappingPage : List UInt8 := ['M', 'a', 'p', 'p', 'i', 'n', 'g', ' ', 'v', 'i', 'r', 't', 'u', 'a', 'l', ' ', 'p',
  'a', 'g', 'e', ' ', '0', 'x'].map char

def toFrame : List UInt8 := [' ', 't', 'o', ' ', 'p', 'h', 'y', 's', 'i', 'c', 'a', 'l', ' ', 'f', 'r', 'a', 'm', 'e',
  ' ', '0', 'x'].map char

def withFlags : List UInt8 := [' ', 'w', 'i', 't', 'h', ' ', 'f', 'l', 'a', 'g', 's', ' ', '0', 'x'].map char

def allocated : List UInt8 := ['A', 'l', 'l', 'o', 'c', 'a', 't', 'e', 'd', ' '].map char

def bytesAt : List UInt8 := [' ', 'b', 'y', 't', 'e', 's', ' ', 'a', 't', ' ', '0', 'x'].map char

def frameCall (currentIndex addr : ℕ) : LogCall where
  level := .physicalMemory
  fmt := allocatedFrame ++ (char '%' :: char 'i' :: (atAddress ++ [char '%', char 'x']))
  args := [.int (BitVec.ofNat 32 currentIndex).toInt, .uint64 addr]

def pageCall (virtualPage physicalFrame flag : ℕ) : LogCall where
  level := .paging
  fmt := mappingPage ++ (char '%' :: char 'x' :: (toFrame ++ (char '%' :: char 'x' ::
    (withFlags ++ [char '%', char 'x']))))
  args := [.uint64 virtualPage, .uint64 physicalFrame, .uint64 flag]

def bytesCall (size resultPointer : ℕ) : LogCall where
  level := .virtualMemory
  fmt := allocated ++ (char '%' :: char 'i' :: (bytesAt ++ [char '%', char 'x']))
  args := [.int (BitVec.ofNat 32 size).toInt, .uint64 resultPointer]

variable (limit : ℕ)

def kallocFrameCalls (s : State Frames) : Option (List LogCall) :=
  (findFree s.mem limit s.frames.managedFramesAddressStart 0).map fun (_, currentIndex) =>
    [frameCall currentIndex ((s.frames.firstFrameAddress + currentIndex * frameSize % 2 ^ 32) % 2 ^ 64)]

def nextTableCalls (s : State Frames) (table : ℕ) (index : Fin 512) : Option (List LogCall) :=
  if isEntryValid s.mem table index then some [] else kallocFrameCalls limit s

def mapPageCalls (s : State Frames) (virtualPage physicalFrame flag : ℕ) : Option (List LogCall) := do
  let first ← nextTableCalls limit s s.firstLevelTable (getVpn3 virtualPage)
  let (s, secondTable) ← nextTable (kallocFrame limit) s s.firstLevelTable (getVpn3 virtualPage)
  let second ← nextTableCalls limit s secondTable (getVpn2 virtualPage)
  let (s, thirdTable) ← nextTable (kallocFrame limit) s secondTable (getVpn2 virtualPage)
  let third ← nextTableCalls limit s thirdTable (getVpn1 virtualPage)
  some (pageCall virtualPage physicalFrame flag :: (first ++ second ++ third))

def growListCalls (current size : ℕ) : ℕ → State Frames → Option (List LogCall)
  | 0, _ => none
  | fuel + 1, s => do
    let free ← getSize s current
    if free < (size + sizeofFreeSpace * 2) % 2 ^ 64 then
      let frame ← kallocFrameCalls limit s
      let (newFrame, s) ← s.kallocFrame (kallocFrame limit)
      let page ← mapPageCalls limit s s.virtualAllocEnd newFrame 0xF
      let s ← mapPage (kallocFrame limit) s s.virtualAllocEnd newFrame 0xF
      let free ← getSize s current
      let s ← setSize s current ((free + pageSize) % 2 ^ 64)
      let rest ← growListCalls current size fuel { s with virtualAllocEnd := (s.virtualAllocEnd + pageSize) % 2 ^ 64 }
      some (frame ++ page ++ rest)
    else some []

def kallocCalls (fuel : ℕ) (s : State Frames) (size : ℕ) : Option (List LogCall) := do
  let current ← searchList s size fuel s.freeList
  let last ← isLast s current
  let free ← getSize s current
  let growth ← if last && free < (size + sizeofFreeSpace * 2) % 2 ^ 64 then growListCalls limit current size fuel s
    else some []
  some (growth ++ [bytesCall size ((current + 16) % 2 ^ 64)])

end Calls

section Texts

def LogCall.Readable (call : LogCall) : Prop := ∃ text, kernelVprintf call.fmt call.args = some ([], text) ∧ 0 ∉ text

lemma digitChar_ne_zero : ∀ d < 16, digitChar d ≠ 0 := by decide

lemma zero_notMem_digits {base n : ℕ} (hb : 1 < base) (hbase : base ≤ 16) : 0 ∉ (digits base n).map digitChar := by
  intro hmem
  obtain ⟨d, hd, hzero⟩ := List.mem_map.mp hmem
  exact digitChar_ne_zero d ((digits_lt hb hd).trans_le hbase) hzero

lemma zero_notMem_hexText (n : ℕ) : 0 ∉ hexText n := zero_notMem_digits (by decide) le_rfl

lemma zero_notMem_intText {n : ℕ} (hn : n < 2 ^ 31) : 0 ∉ intText (BitVec.ofNat 32 n).toInt := by
  rw [BitVec.toInt_ofNat', Int.bmod_eq_of_le (by omega) (by omega), intText, if_neg (by omega)]
  exact zero_notMem_digits (by decide) (by decide)

lemma kernelVprintf_int_hex {t₁ t₂ : List UInt8} (h₁ : char '%' ∉ t₁) (h₂ : char '%' ∉ t₂) {i : ℤ} (hi : i < 2 ^ 31)
    {n : ℕ} (hn : n < 2 ^ 64) : kernelVprintf (t₁ ++ (char '%' :: char 'i' :: (t₂ ++ [char '%', char 'x'])))
      [.int i, .uint64 n] = some ([], t₁ ++ intText i ++ t₂ ++ hexText n) := by
  rw [kernelVprintf, vprintf_append h₁, emitAll_putChar, Option.bind_some, vprintf_intText _ _ _ hi,
    vprintf_append h₂, emitAll_putChar, Option.bind_some, vprintf_hexText _ _ _ hn]
  rfl

lemma frameCall_readable {currentIndex addr : ℕ} (hi : currentIndex < 2 ^ 31) (ha : addr < 2 ^ 64) :
    (frameCall currentIndex addr).Readable := by
  refine ⟨_, kernelVprintf_int_hex (by decide) (by decide) BitVec.toInt_lt ha, ?_⟩
  simp only [List.mem_append, not_or]
  exact ⟨⟨⟨by decide, zero_notMem_intText hi⟩, by decide⟩, zero_notMem_hexText addr⟩

lemma bytesCall_readable {size resultPointer : ℕ} (hs : size < 2 ^ 31) (hp : resultPointer < 2 ^ 64) :
    (bytesCall size resultPointer).Readable := by
  refine ⟨_, kernelVprintf_int_hex (by decide) (by decide) BitVec.toInt_lt hp, ?_⟩
  simp only [List.mem_append, not_or]
  exact ⟨⟨⟨by decide, zero_notMem_intText hs⟩, by decide⟩, zero_notMem_hexText resultPointer⟩

lemma pageCall_readable {virtualPage physicalFrame flag : ℕ} (hv : virtualPage < 2 ^ 64) (hf : physicalFrame < 2 ^ 64)
    (hflag : flag < 2 ^ 64) : (pageCall virtualPage physicalFrame flag).Readable := by
  refine ⟨mappingPage ++ hexText virtualPage ++ toFrame ++ hexText physicalFrame ++ withFlags ++ hexText flag, ?_, ?_⟩
  · rw [kernelVprintf, pageCall, vprintf_append (by decide), emitAll_putChar, Option.bind_some,
      vprintf_hexText _ _ _ hv, vprintf_append (by decide), emitAll_putChar, Option.bind_some,
      vprintf_hexText _ _ _ hf, vprintf_append (by decide), emitAll_putChar, Option.bind_some,
      vprintf_hexText _ _ _ hflag]
    rfl
  · simp only [List.mem_append, not_or]
    exact ⟨⟨⟨⟨⟨by decide, zero_notMem_hexText _⟩, by decide⟩, zero_notMem_hexText _⟩, by decide⟩, zero_notMem_hexText _⟩

lemma LogCall.Readable.log {call : LogCall} (h : call.Readable) (logLevel : ℕ) :
    ∃ line, log logLevel call.level call.fmt call.args = some line ∧ 0 ∉ line ∧
      (line = [] ↔ logLevel &&& call.level.bit = 0) := by
  obtain ⟨text, hprint, hzero⟩ := h
  refine ⟨_, log_eq logLevel call.level hprint, ?_, ?_⟩
  · split
    · exact List.not_mem_nil
    · have htag : 0 ∉ call.level.tag.map char := by cases call.level <;> decide
      simp only [List.mem_append, not_or]
      exact ⟨⟨⟨htag, by decide⟩, hzero⟩, by decide⟩
  · split
    · exact ⟨fun _ => ‹_›, fun _ => rfl⟩
    · rename_i hon
      exact ⟨fun hnil => by simp at hnil, fun hoff => absurd hoff hon⟩

lemma printCalls_eq {calls : List LogCall} (h : ∀ call ∈ calls, call.Readable) (logLevel : ℕ) :
    ∃ lines, printCalls logLevel calls = some lines ∧ 0 ∉ lines ∧
      (lines = [] ↔ ∀ call ∈ calls, logLevel &&& call.level.bit = 0) := by
  induction calls with
  | nil => exact ⟨[], rfl, List.not_mem_nil, fun _ _ hc => absurd hc List.not_mem_nil, fun _ => rfl⟩
  | cons call calls ih =>
    obtain ⟨hcall, hcalls⟩ := List.forall_mem_cons.mp h
    obtain ⟨line, hline, hzero, hoff⟩ := hcall.log logLevel
    obtain ⟨lines, hlines, hzeros, hoffs⟩ := ih hcalls
    refine ⟨line ++ lines, ?_, by simp [hzero, hzeros], ?_⟩
    · simp only [printCalls, hline, hlines, Option.bind_eq_bind, Option.bind_some]
    · rw [List.append_eq_nil_iff, hoff, hoffs, List.forall_mem_cons]

end Texts

section Agreement

variable {limit : ℕ} (hlimit : limit ≤ 2 ^ 31) {s s' : State Frames}
include hlimit

lemma kallocFrameCalls_eq {f : ℕ} (hk : s.kallocFrame (kallocFrame limit) = some (f, s')) :
    f < 2 ^ 64 ∧ ∃ currentIndex < 2 ^ 31, kallocFrameCalls limit s = some [frameCall currentIndex f] := by
  obtain ⟨⟨_, _, _⟩, hk, heq⟩ := Option.map_eq_some_iff.mp hk
  obtain ⟨⟨flags, currentIndex⟩, hfind, hframe⟩ := Option.map_eq_some_iff.mp hk
  obtain ⟨i, hi, _, rfl, _⟩ := findFree_some (by omega) hfind
  simp only [Prod.mk.injEq] at heq hframe
  obtain ⟨rfl, -⟩ := heq
  rw [kallocFrameCalls, hfind, ← hframe.1]
  exact ⟨Nat.mod_lt _ (by decide), 0 + i, by omega, rfl⟩

def FrameCalls (calls : List LogCall) : Prop := ∀ call ∈ calls, call.Readable ∧ call.level = .physicalMemory

lemma nextTableCalls_eq {table T : ℕ} {index : Fin 512}
    (hn : nextTable (kallocFrame limit) s table index = some (s', T)) :
    ∃ calls, nextTableCalls limit s table index = some calls ∧ FrameCalls calls := by
  rw [nextTableCalls]
  obtain ⟨-, ⟨hvalid, -⟩ | ⟨hinvalid, f, s₁, hk, -⟩⟩ := nextTable_cases hn
  · exact ⟨[], if_pos hvalid, fun _ hc => absurd hc List.not_mem_nil⟩
  · obtain ⟨hf, i, hi, hcalls⟩ := kallocFrameCalls_eq hlimit hk
    refine ⟨[frameCall i f], by rw [hinvalid, hcalls]; rfl, fun call hc => ?_⟩
    rw [List.mem_singleton.mp hc]
    exact ⟨frameCall_readable hi hf, rfl⟩

lemma mapPageCalls_eq {v f flag : ℕ} (hm : mapPage (kallocFrame limit) s v f flag = some s') :
    ∃ calls, mapPageCalls limit s v f flag = some (pageCall v f flag :: calls) ∧ FrameCalls calls := by
  obtain ⟨s₁, s₂, s₃, T₁, T₂, T₃, e, h₁, h₂, h₃, -, -⟩ := mapPage_cases hm
  obtain ⟨first, hfirst, hf⟩ := nextTableCalls_eq hlimit h₁
  obtain ⟨second, hsecond, hs⟩ := nextTableCalls_eq hlimit h₂
  obtain ⟨third, hthird, ht⟩ := nextTableCalls_eq hlimit h₃
  refine ⟨first ++ second ++ third, ?_, ?_⟩
  · simp only [mapPageCalls, hfirst, h₁, hsecond, h₂, hthird, Option.bind_eq_bind, Option.bind_some]
  · exact List.forall_mem_append.mpr ⟨List.forall_mem_append.mpr ⟨hf, hs⟩, ht⟩

def PageCalls (calls : List LogCall) : Prop :=
  ∀ call ∈ calls, call.Readable ∧ (call.level = .physicalMemory ∨ call.level = .paging)

lemma growListCalls_eq {current size fuel : ℕ} (hend : s.virtualAllocEnd < 2 ^ 64)
    (hg : growList (kallocFrame limit) current size fuel s = some s') :
    ∃ calls, growListCalls limit current size fuel s = some calls ∧ PageCalls calls ∧
      ∀ free, getSize s current = some free → free < (size + sizeofFreeSpace * 2) % 2 ^ 64 →
        (∃ call ∈ calls, call.level = .physicalMemory) ∧ ∃ call ∈ calls, call.level = .paging := by
  induction fuel generalizing s with
  | zero => cases hg
  | succ fuel ih =>
    obtain ⟨free, hfree, hg⟩ := Option.bind_eq_some_iff.mp hg
    by_cases hlt : free < (size + sizeofFreeSpace * 2) % 2 ^ 64
    · rw [if_pos hlt] at hg
      obtain ⟨⟨f, s₁⟩, hk, hg⟩ := Option.bind_eq_some_iff.mp hg
      obtain ⟨s₂, hm, hg⟩ := Option.bind_eq_some_iff.mp hg
      obtain ⟨free', hfree', hg⟩ := Option.bind_eq_some_iff.mp hg
      obtain ⟨s₃, hset, hg⟩ := Option.bind_eq_some_iff.mp hg
      obtain ⟨hf, i, hi, hframe⟩ := kallocFrameCalls_eq hlimit hk
      obtain ⟨tables, hpage, htables⟩ := mapPageCalls_eq hlimit hm
      obtain ⟨rest, hrest, hcalls, -⟩ := ih (Nat.mod_lt _ (by decide)) hg
      have hend₁ : s₁.virtualAllocEnd < 2 ^ 64 := by rwa [kallocFrame_virtualAllocEnd hk]
      have hread := pageCall_readable hend₁ hf (by decide : 0xF < 2 ^ 64)
      refine ⟨[frameCall i f] ++ pageCall s₁.virtualAllocEnd f 0xF :: tables ++ rest, ?_, ?_, fun _ _ _ => ?_⟩
      · simp only [growListCalls, hfree, if_pos hlt, hframe, hk, hpage, hm, hfree', hset, hrest, Option.bind_eq_bind,
          Option.bind_some]
      · refine List.forall_mem_append.mpr ⟨List.forall_mem_append.mpr ⟨?_, ?_⟩, hcalls⟩
        · exact List.forall_mem_singleton.mpr ⟨frameCall_readable hi hf, Or.inl rfl⟩
        · exact List.forall_mem_cons.mpr
            ⟨⟨hread, Or.inr rfl⟩, fun call hc => ⟨(htables call hc).1, Or.inl (htables call hc).2⟩⟩
      · exact ⟨⟨frameCall i f, by simp, rfl⟩, ⟨pageCall s₁.virtualAllocEnd f 0xF, by simp, rfl⟩⟩
    · refine ⟨[], ?_, fun _ hc => absurd hc List.not_mem_nil, fun free' hfree' hlt' => ?_⟩
      · simp only [growListCalls, hfree, if_neg hlt, Option.bind_eq_bind, Option.bind_some]
      · obtain rfl := Option.some.inj (hfree.symm.trans hfree')
        exact absurd hlt' hlt

end Agreement

/-- What `kalloc` sends to `put_char`. -/
def allocatorLines (limit fuel logLevel : ℕ) (s : State Frames) (size : ℕ) : Option (List UInt8) :=
  (kallocCalls limit fuel s size).bind (printCalls logLevel)

/-- None of the calls of `log` in `kalloc` prints anything: not the one at its end, nor those on the way to more pages,
if the heap has to grow. -/
structure SilentAllocation (logLevel : ℕ) (s : State Frames) (size : ℕ) : Prop where
  virtualMemory : logLevel &&& LogLevel.bit .virtualMemory = 0
  growth : s.virtualAllocEnd < s.freeList + (size + 32) →
    logLevel &&& LogLevel.bit .physicalMemory = 0 ∧ logLevel &&& LogLevel.bit .paging = 0

def AllocatorsOff (logLevel : ℕ) : Prop :=
  ∀ level ∈ [LogLevel.paging, .virtualMemory, .physicalMemory], logLevel &&& level.bit = 0

instance (logLevel : ℕ) : Decidable (AllocatorsOff logLevel) := inferInstanceAs (Decidable (∀ level ∈ [_, _, _], _))

def osStartLogLevel : ℕ := LogLevel.bit .syscall ||| LogLevel.bit .exception ||| LogLevel.bit .system |||
  LogLevel.bit .error ||| LogLevel.bit .warning ||| LogLevel.bit .process ||| LogLevel.bit .fs

example : AllocatorsOff osStartLogLevel := by decide

lemma AllocatorsOff.silent {logLevel : ℕ} (h : AllocatorsOff logLevel) (s : State Frames) (size : ℕ) :
    SilentAllocation logLevel s size :=
  ⟨h _ (by simp), fun _ => ⟨h _ (by simp), h _ (by simp)⟩⟩

section Lines

variable {img : Image} {hr : Room img} {L K : List (Fin 512) → Prop} {s s' : State Frames}
    (h : HeapOk (source img hr) L K s)
include h

lemma kalloc_size_lt {fuel size p : ℕ} (hsize : size + 32 < 2 ^ 64)
    (hk : kalloc (kallocFrame (reserved img)) fuel s size = some (p, s')) : p < 2 ^ 64 ∧ size < 2 ^ 31 := by
  obtain ⟨h', hp, hfl, -⟩ := h.kalloc hsize hk
  have hst := h.start
  have hspace := h'.space
  have hend := h'.end_le
  rw [heapStart_eq] at hst
  rw [heapLimit_eq] at hend
  omega

lemma kallocCalls_eq {fuel size p : ℕ} (hsize : size + 32 < 2 ^ 64)
    (hk : kalloc (kallocFrame (reserved img)) fuel s size = some (p, s')) :
    ∃ growth, kallocCalls (reserved img) fuel s size = some (growth ++ [bytesCall size p]) ∧ PageCalls growth ∧
      (s.freeList + (size + 32) ≤ s.virtualAllocEnd → growth = []) ∧
      (s.virtualAllocEnd < s.freeList + (size + 32) →
        (∃ call ∈ growth, call.level = .physicalMemory) ∧ ∃ call ∈ growth, call.level = .paging) := by
  cases fuel with
  | zero => cases hk
  | succ fuel =>
    have hspace := h.space
    have hend := h.end_le
    rw [heapLimit_eq] at hend
    obtain ⟨-, hp, -⟩ := h.kalloc hsize hk
    have hpointer : (s.freeList + 16) % 2 ^ 64 = p := by rw [hp, Nat.mod_eq_of_lt (by omega)]
    have hneed : (size + sizeofFreeSpace * 2) % 2 ^ 64 = size + 32 := by
      rw [sizeofFreeSpace]
      omega
    have hcalls : kallocCalls (reserved img) (fuel + 1) s size =
        (if s.virtualAllocEnd - s.freeList < size + 32 then
          growListCalls (reserved img) s.freeList size (fuel + 1) s else some []).bind
            fun growth => some (growth ++ [bytesCall size p]) := by
      simp only [kallocCalls, h.searchList_freeList, h.isLast_freeList, h.getSize_freeList, Option.bind_eq_bind,
        Option.bind_some, Bool.true_and, decide_eq_true_eq, hneed, hpointer]
      split_ifs <;> rfl
    by_cases hlt : s.virtualAllocEnd - s.freeList < size + 32
    · change kalloc (source img hr).kallocFrame (fuel + 1) s size = some (p, s') at hk
      rw [h.kalloc_eq hsize, if_pos hlt] at hk
      obtain ⟨s₁, hg, -⟩ := Option.bind_eq_some_iff.mp hk
      have hlimit : reserved img ≤ 2 ^ 31 := (reserved_le img).trans (by decide)
      obtain ⟨growth, hgrowth, hpages, hlevels⟩ := growListCalls_eq hlimit (by omega) hg
      refine ⟨growth, by rw [hcalls, if_pos hlt, hgrowth]; rfl, hpages, fun hfit => by omega, fun _ => ?_⟩
      exact hlevels _ h.getSize_freeList (by rw [hneed]; exact hlt)
    · refine ⟨[], by rw [hcalls, if_neg hlt]; rfl, fun _ hc => absurd hc List.not_mem_nil, fun _ => rfl,
        fun hgrow => ?_⟩
      omega

lemma allocatorLines_eq {fuel size p : ℕ} (logLevel : ℕ) (hsize : size + 32 < 2 ^ 64)
    (hk : kalloc (kallocFrame (reserved img)) fuel s size = some (p, s')) :
    ∃ lines, allocatorLines (reserved img) fuel logLevel s size = some lines ∧ 0 ∉ lines ∧
      (lines = [] ↔ SilentAllocation logLevel s size) := by
  obtain ⟨hp, hsmall⟩ := kalloc_size_lt h hsize hk
  obtain ⟨growth, hcalls, hpages, hnone, hboth⟩ := kallocCalls_eq h hsize hk
  have hread : ∀ call ∈ growth ++ [bytesCall size p], call.Readable := List.forall_mem_append.mpr
    ⟨fun call hc => (hpages call hc).1, List.forall_mem_singleton.mpr (bytesCall_readable hsmall hp)⟩
  obtain ⟨lines, hlines, hzero, hoff⟩ := printCalls_eq hread logLevel
  refine ⟨lines, by rw [allocatorLines, hcalls, Option.bind_some, hlines], hzero, hoff.trans ?_⟩
  rw [List.forall_mem_append, List.forall_mem_singleton]
  constructor
  · rintro ⟨hgrowth, hbytes⟩
    refine ⟨hbytes, fun hgrow => ?_⟩
    obtain ⟨⟨frame, hframe, hpmem⟩, page, hpage, hpaging⟩ := hboth hgrow
    exact ⟨hpmem ▸ hgrowth frame hframe, hpaging ▸ hgrowth page hpage⟩
  · rintro ⟨hbytes, hgrowth⟩
    refine ⟨fun call hc => ?_, hbytes⟩
    by_cases hfit : s.freeList + (size + 32) ≤ s.virtualAllocEnd
    · rw [hnone hfit] at hc
      exact absurd hc List.not_mem_nil
    · obtain ⟨hpmem, hpaging⟩ := hgrowth (by omega)
      rcases (hpages call hc).2 with hlevel | hlevel
      · rw [hlevel, hpmem]
      · rw [hlevel, hpaging]

end Lines

end TetraOS.Console
