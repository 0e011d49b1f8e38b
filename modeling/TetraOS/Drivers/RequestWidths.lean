import TetraOS.Drivers.BlockRead
import TetraOS.Drivers.RequestRuns

/-! The widths of the values in a request (kernel/drivers/virtio/blk.cpp): the arguments have 64 bits, the parameter
`sector` of `VirtIOBlkRequest` and the field `len` of a descriptor have 32. -/

namespace TetraOS.Drivers.Virtqueue

open BlockRead Library.ByteMemory

namespace Shared

variable (m : Shared)

def handedHeader : Desc := m.desc (m.ring (m.idx % queueSize))
def handedData : Desc := m.desc m.handedHeader.next

def handed : Request :=
  ⟨(m.headerAt m.handedHeader.addr).type, (m.headerAt m.handedHeader.addr).sector, m.handedData.addr, m.handedData.len,
    (m.desc m.handedData.next).addr⟩

end Shared

/-- The device is given the header of the call, the header holds the sector of the call, and the descriptor of the data
its length. -/
structure Carries (l : Layout) (c : Call) (m : Shared) : Prop where
  header : m.handedHeader.addr = l.physical c.request
  sector : load (view l.frame m.bytes) 8 (c.request + 8) = c.sector
  length : m.handedData.len = c.length

/-- The call of `basic_op` that `read` comes to, with the address of its temporary buffer. -/
def readCall (offset length tempBuffer request : ℕ) : Call :=
  ⟨diskOffset offset / 512, tempSize length, tempBuffer, 0, request⟩

section Widths

variable (l : Layout) (c : Call) (m : Shared)

lemma setup_idx : (runAll (c.setup l) m).idx = m.idx := rfl

lemma setup_handedHeader : (runAll (c.setup l) m).handedHeader = ⟨c.headerAddr l, 16, descNext, 1⟩ := by
  rw [Shared.handedHeader, setup_idx, setup_ring, setup_first]

lemma setup_handedData : (runAll (c.setup l) m).handedData = ⟨c.bufferAddr l, c.length % 2 ^ 32,
    if c.type = 1 then descNext else descNext ||| descWrite, 2⟩ := by
  rw [Shared.handedData, setup_handedHeader, setup_second]

lemma setup_handed (hwhole : c.Whole l) : (runAll (c.setup l) m).handed =
    ⟨c.type % 2 ^ 32, c.sector % 2 ^ 32, c.bufferAddr l, c.length % 2 ^ 32, c.statusAddr l⟩ := by
  rw [Shared.handed, setup_handedHeader, setup_handedData, setup_header hwhole, setup_third]

lemma carries_iff : Carries l c (runAll (c.setup l) m) ↔ c.sector < 2 ^ 32 ∧ c.length < 2 ^ 32 := by
  have hsector : c.sector % 2 ^ 32 = c.sector ↔ c.sector < 2 ^ 32 := Nat.mod_eq_iff_lt (by decide)
  have hlength : c.length % 2 ^ 32 = c.length ↔ c.length < 2 ^ 32 := Nat.mod_eq_iff_lt (by decide)
  rw [← hsector, ← hlength]
  constructor
  · rintro ⟨_, hs, hl⟩
    rw [setup_sector] at hs
    rw [setup_handedData] at hl
    exact ⟨hs, hl⟩
  · rintro ⟨hs, hl⟩
    exact ⟨by rw [setup_handedHeader, Call.headerAddr], by rw [setup_sector, hs], by rw [setup_handedData]; exact hl⟩

lemma readCall_accepted (offset length tempBuffer request : ℕ) :
    (readCall offset length tempBuffer request).Accepted := by
  refine ⟨?_, Or.inl rfl⟩
  dsimp only [readCall, tempSize]
  omega

end Widths

/-- For every call that is accepted, the header and the descriptor handed to the device hold its sector and its length
exactly if both have 32 bits, and so the header the sector of a byte on the disk exactly if it has. Where the memory of
the call is in one piece, this is the request that the device reads. -/
theorem basicOp_carries_iff (l : Layout) (m : Shared) :
    (∀ c : Call, c.Accepted → (Carries l c (runAll (c.setup l) m) ↔ c.sector < 2 ^ 32 ∧ c.length < 2 ^ 32)) ∧
    (∀ c : Call, c.Accepted → c.Whole l → ((runAll (c.setup l) m).handed = c.asRequest l ↔
      c.sector < 2 ^ 32 ∧ c.length < 2 ^ 32)) ∧
    ∀ offset length tempBuffer request, offset + 512 * 2048 < 2 ^ 64 →
      (readCall offset length tempBuffer request).Accepted ∧
      (load (view l.frame (runAll ((readCall offset length tempBuffer request).setup l) m).bytes) 8 (request + 8) =
        (offset + 512 * 2048) / 512 ↔ (offset + 512 * 2048) / 512 < 2 ^ 32) := by
  refine ⟨fun c _ => carries_iff l c m, fun c hc hwhole => ?_, fun offset length tempBuffer request hdisk => ?_⟩
  · rw [setup_handed l c m hwhole, Call.asRequest, Request.mk.injEq, Nat.mod_eq_of_lt hc.type_lt,
      Nat.mod_eq_iff_lt (by decide), Nat.mod_eq_iff_lt (by decide)]
    exact ⟨fun h => ⟨h.2.1, h.2.2.2.1⟩, fun h => ⟨rfl, h.1, rfl, h.2, rfl⟩⟩
  · have hoffset : diskOffset offset = offset + 512 * 2048 := Nat.mod_eq_of_lt hdisk
    refine ⟨readCall_accepted offset length tempBuffer request, ?_⟩
    rw [← Nat.mod_eq_iff_lt (by decide : 2 ^ 32 ≠ 0), ← hoffset]
    exact Eq.congr_left (setup_sector l (readCall offset length tempBuffer request) m)

def emptyQueue : Shared := ⟨fun _ => ⟨0, 0, 0, 0⟩, 0, fun _ => 0, fun _ => 0⟩

theorem basicOp_carries_superBlock : Carries brokenHeap (readCall 1024 92 0xFFFF800100003000 0xFFFF800100001FF8)
    (runAll ((readCall 1024 92 0xFFFF800100003000 0xFFFF800100001FF8).setup brokenHeap) emptyQueue) :=
  ((basicOp_carries_iff brokenHeap emptyQueue).1 _ (readCall_accepted 1024 92 _ _)).mpr (by decide)

/-- On a disk of more than two terabytes, the device is asked for sector 0 in the place of sector 2 ^ 32. -/
theorem basicOp_not_carries_sector :
    (readCall (2 ^ 41 - 512 * 2048) 512 0xFFFF800100003000 0xFFFF800100002000).Accepted ∧
    (runAll ((readCall (2 ^ 41 - 512 * 2048) 512 0xFFFF800100003000 0xFFFF800100002000).setup brokenHeap)
      emptyQueue).handed.sector = 0 ∧
    ¬ Carries brokenHeap (readCall (2 ^ 41 - 512 * 2048) 512 0xFFFF800100003000 0xFFFF800100002000)
      (runAll ((readCall (2 ^ 41 - 512 * 2048) 512 0xFFFF800100003000 0xFFFF800100002000).setup brokenHeap)
        emptyQueue) := by
  have hwhole : (readCall (2 ^ 41 - 512 * 2048) 512 0xFFFF800100003000 0xFFFF800100002000).Whole brokenHeap :=
    whole_of_page (by decide) (by decide) fun _ hx => (brokenHeap_queue hx).trans (by decide)
  refine ⟨readCall_accepted _ _ _ _, ?_, ?_⟩
  · rw [setup_handed _ _ _ hwhole]
    rfl
  · rw [carries_iff]
    decide

end TetraOS.Drivers.Virtqueue
