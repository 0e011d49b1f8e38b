import TetraOS.Memory.FlagSource

/-! The page tables as a finite map. A sequence of `map_page` calls on the tables of `paging_init` acts
on the translation of addresses as the same sequence of updates acts on a map from pages to frames. -/

namespace TetraOS.Memory

open Library.ByteMemory Library.TableTree VirtualPage PhysicalAllocator

variable {α : Type}

structure MapCall where
  virtualPage : ℕ
  physicalFrame : ℕ
  flag : ℕ

structure MapCall.Valid (c : MapCall) : Prop where
  outside : Outside c.virtualPage
  aligned : c.physicalFrame % 4096 = 0
  pos : c.physicalFrame ≠ 0
  ppn : c.physicalFrame / 4096 < 2 ^ 40
  flag : c.flag < 2 ^ 10

def mapCalls (k : FrameAlloc α) (s : State α) (calls : List MapCall) : Option (State α) :=
  calls.foldlM (fun s c => mapPage k s c.virtualPage c.physicalFrame c.flag) s

def setup (k : FrameAlloc α) (s : State α) (calls : List MapCall) : Option (State α) :=
  (pagingInit k s).bind fun s => mapCalls k s calls

def lastFrame (calls : List MapCall) (va : ℕ) : Option ℕ :=
  (calls.reverse.find? fun c => pageOf c.virtualPage = pageOf va).map MapCall.physicalFrame

lemma lastFrame_concat (calls : List MapCall) (c : MapCall) (va : ℕ) :
    lastFrame (calls ++ [c]) va =
      if pageOf c.virtualPage = pageOf va then some c.physicalFrame else lastFrame calls va := by
  rw [lastFrame, List.reverse_append, List.reverse_singleton, List.singleton_append, List.find?_cons]
  by_cases h : pageOf c.virtualPage = pageOf va
  · simp [h]
  · simp [h, lastFrame]

lemma lastFrame_eq_none {calls : List MapCall} {va : ℕ} :
    lastFrame calls va = none ↔ ∀ c ∈ calls, pageOf c.virtualPage ≠ pageOf va := by
  simp [lastFrame]

section Calls

variable {S : FrameSource α} {L : List (Fin 512) → Prop} {calls : List MapCall} {c : MapCall} {s s' : State α}

lemma Maps.lastFrame {g : ℕ → ℕ} (hm : Maps S L s s' c.virtualPage (g c.physicalFrame))
    (h : ∀ va, Outside va → walk (slot s.mem) s.satp (path va) = (lastFrame calls va).map g) {va : ℕ}
    (hva : Outside va) : walk (slot s'.mem) s'.satp (path va) = (Memory.lastFrame (calls ++ [c]) va).map g := by
  rw [hm.satp, lastFrame_concat]
  by_cases hp : pageOf c.virtualPage = pageOf va
  · rw [if_pos hp, ← path_eq_iff.mpr hp, hm.self, Option.map_some]
  · rw [if_neg hp, hm.other (path va) (inside_path hva) ?_, h va hva]
    intro hpre
    exact hp (path_eq_iff.mp (hpre.eq_of_length (by simp [path])).symm)

variable {I : List MapCall → State α → Prop} {P : MapCall → Prop} {more : List MapCall}

lemma mapCalls_run (hstep : ∀ {calls s s' c}, I calls s → P c →
      mapPage S.kallocFrame s c.virtualPage c.physicalFrame c.flag = some s' → I (calls ++ [c]) s')
    (hv : ∀ c ∈ more, P c) (h : I calls s) (hk : mapCalls S.kallocFrame s more = some s') :
    I (calls ++ more) s' := by
  induction more generalizing calls s with
  | nil =>
    obtain rfl := Option.some.inj hk
    rwa [List.append_nil]
  | cons c more ih =>
    obtain ⟨s₁, hk₁, hk₂⟩ := Option.bind_eq_some_iff.mp hk
    have hh := ih (fun d hd => hv d (List.mem_cons_of_mem c hd)) (hstep h (hv c List.mem_cons_self) hk₁) hk₂
    rwa [List.append_assoc] at hh

lemma mapCalls_returns (hreturns : ∀ {calls s c}, I calls s → P c → 3 ≤ S.left s.mem s.frames →
      ∃ s', mapPage S.kallocFrame s c.virtualPage c.physicalFrame c.flag = some s' ∧ I (calls ++ [c]) s' ∧
        S.left s.mem s.frames ≤ S.left s'.mem s'.frames + 3)
    (hv : ∀ c ∈ more, P c) (h : I calls s) (hl : 3 * more.length ≤ S.left s.mem s.frames) :
    ∃ s', mapCalls S.kallocFrame s more = some s' := by
  induction more generalizing calls s with
  | nil => exact ⟨s, rfl⟩
  | cons c more ih =>
    rw [List.length_cons] at hl
    obtain ⟨s₁, hk₁, h₁, hl₁⟩ := hreturns h (hv c List.mem_cons_self) (by omega)
    obtain ⟨s', hk'⟩ := ih (fun d hd => hv d (List.mem_cons_of_mem c hd)) h₁ (by omega)
    exact ⟨s', Option.bind_eq_some_iff.mpr ⟨s₁, hk₁, hk'⟩⟩

end Calls

def NoLeaf : List (Fin 512) → Prop := fun _ => False

def AnyEntry : List (Fin 512) → ℕ → Prop := fun _ _ => True

structure Represents (S : FrameSource α) (calls : List MapCall) (s : State α) : Prop where
  tree : Tree S NoLeaf AnyEntry s
  map : ∀ va, Outside va → walk (slot s.mem) s.satp (path va) = (lastFrame calls va).map (· / 4096)

namespace Represents

variable {S : FrameSource α} {calls : List MapCall} {s s' : State α}

lemma pagingInit (hgood : S.Good s.mem s.frames) (hzero : ∀ t, S.Free s.mem s.frames t → Zero s.mem (4096 * t) 4096)
    (hk : pagingInit S.kallocFrame s = some s') :
    Represents S [] s' ∧ S.left s.mem s.frames = S.left s'.mem s'.frames + 2 := by
  have hok : ∀ q n, q.length < 4 → n < 2 ^ 20 → AnyEntry q (n * 1024 + 1) := fun _ _ _ _ => trivial
  obtain ⟨n₁, s₁, n₂, s₂, _, _, _, htree, hb⟩ := pagingInit_spec hok hgood hzero hk
  refine ⟨⟨htree, fun va hva => ?_⟩, hb.left⟩
  rw [hb.satp]
  exact hb.empty (path va) hva (by simp [path]) (by simp [path])

lemma mapPage (h : Represents S calls s) {c : MapCall} (hc : c.Valid)
    (hk : mapPage S.kallocFrame s c.virtualPage c.physicalFrame c.flag = some s') :
    Represents S (calls ++ [c]) s' ∧
      S.left s.mem s.frames = S.left s'.mem s'.frames + missingTables s.mem s.satp c.virtualPage := by
  have hflag : 1 ||| c.flag < 2 ^ 10 := Nat.or_lt_two_pow (by decide) hc.flag
  have hppn := hc.ppn
  have he : createValidPageTableEntry (c.physicalFrame / 4096) ||| c.flag =
      c.physicalFrame / 4096 * 1024 + (1 ||| c.flag) := by rw [leafEntry_eq hc.flag, Nat.mod_eq_of_lt hppn]
  obtain ⟨htree, hm⟩ := h.tree.mapPage (fun _ _ _ _ => trivial) hc.outside
    (by rw [PhysicalFrame.getPpn_eq, he]) (n := c.physicalFrame / 4096) (by omega) (by omega) trivial
    False.elim hk
  exact ⟨⟨htree, fun va hva => hm.lastFrame (g := (· / 4096)) h.map hva⟩, hm.left⟩

lemma mapCalls {more : List MapCall} (hv : ∀ c ∈ more, c.Valid) (h : Represents S calls s)
    (hk : mapCalls S.kallocFrame s more = some s') : Represents S (calls ++ more) s' :=
  mapCalls_run (fun h hc hk => (h.mapPage hc hk).1) hv h hk

lemma mapCalls_isSome {more : List MapCall} (hv : ∀ c ∈ more, c.Valid) (h : Represents S calls s)
    (hl : 3 * more.length ≤ S.left s.mem s.frames) : ∃ s', Memory.mapCalls S.kallocFrame s more = some s' := by
  refine mapCalls_returns (fun {calls s c} h hc hl => ?_) hv h hl
  have hmiss := missingTables_le s.mem s.satp c.virtualPage
  obtain ⟨s₁, hk₁⟩ := h.tree.mapPage_isSome (fun _ _ _ _ => trivial) hc.outside (by omega) c.physicalFrame c.flag
  obtain ⟨h₁, hl₁⟩ := h.mapPage hc hk₁
  exact ⟨s₁, hk₁, h₁, by omega⟩

lemma translate (h : Represents S calls s) {va : ℕ} (hva : Outside va) :
    getPhysicalAddressOfVirtualAddress s va =
      (lastFrame calls va).elim 0 fun f => 4096 * (f / 4096) + va % 4096 := by
  have hr : s.satp < 2 ^ 52 := h.tree.lt_of_node node_nil walk_nil
  rw [getPhysicalAddress_eq_walk hr h.tree.root, h.map va hva]
  cases lastFrame calls va <;> rfl

end Represents

/-- After `paging_init` and any sequence of `map_page` calls, the walker returns what the last call
for the page of the address has set, and nothing for pages that no call has mapped. -/
theorem mapPage_refines_map (S : FrameSource α) (s₀ : State α) (hgood : S.Good s₀.mem s₀.frames)
    (hzero : ∀ t, S.Free s₀.mem s₀.frames t → Zero s₀.mem (4096 * t) 4096) (calls : List MapCall)
    (hcalls : ∀ c ∈ calls, c.Valid) :
    (2 + 3 * calls.length ≤ S.left s₀.mem s₀.frames → (setup S.kallocFrame s₀ calls).isSome) ∧
    ∀ s, setup S.kallocFrame s₀ calls = some s → ∀ va, Outside va →
      getPhysicalAddressOfVirtualAddress s va =
        (match lastFrame calls va with
          | some f => f ||| va % 4096
          | none => 0) ∧
      (getPhysicalAddressOfVirtualAddress s va = 0 ↔ ∀ c ∈ calls, pageOf c.virtualPage ≠ pageOf va) := by
  constructor
  · intro hl
    obtain ⟨s₁, hk₁⟩ := pagingInit_isSome hgood (by omega)
    obtain ⟨h₁, hl₁⟩ := Represents.pagingInit hgood hzero hk₁
    obtain ⟨s, hk⟩ := h₁.mapCalls_isSome hcalls (by omega)
    rw [setup, hk₁, Option.bind_some, hk, Option.isSome_some]
  · intro s hk va hva
    obtain ⟨s₁, hk₁, hk₂⟩ := Option.bind_eq_some_iff.mp hk
    have h : Represents S calls s := (Represents.pagingInit hgood hzero hk₁).1.mapCalls hcalls hk₂
    have ht := h.translate hva
    rw [ht, ← lastFrame_eq_none]
    cases hf : lastFrame calls va with
    | none => simp
    | some f =>
      obtain ⟨c, hc, rfl⟩ := Option.map_eq_some_iff.mp hf
      have hv := hcalls c (List.mem_reverse.mp (List.mem_of_find?_eq_some hc))
      have hpos := hv.pos
      have hal := hv.aligned
      have hor := or_offset (f := c.physicalFrame / 4096) (a := va)
      rw [getOffset_eq, show 4096 * (c.physicalFrame / 4096) = c.physicalFrame by omega] at hor
      simp only [Option.elim_some, reduceCtorEq, iff_false]
      constructor
      · rw [hor]
        omega
      · omega

theorem mapPage_refines_map_remap :
    ∃ s, setup (kallocFrame (reserved megabyteImage)) (cleared megabyteImage fun _ => 0)
        [⟨0x1000, 0x80200000, 31⟩, ⟨0x1000, 0x80300000, 31⟩] = some s ∧
      getPhysicalAddressOfVirtualAddress s 0x1234 = 0x80300234 ∧
      getPhysicalAddressOfVirtualAddress s 0x2000 = 0 := by
  have hv : ∀ c ∈ ([⟨0x1000, 0x80200000, 31⟩, ⟨0x1000, 0x80300000, 31⟩] : List MapCall), c.Valid := by
    have ho : Outside 0x1000 := outside_iff.mpr (by decide)
    intro c hc
    simp only [List.mem_cons, List.not_mem_nil, or_false] at hc
    rcases hc with rfl | rfl <;> exact ⟨ho, by decide, by decide, by decide, by decide⟩
  obtain ⟨hsome, hmap⟩ := mapPage_refines_map (source megabyteImage megabyteImage_room)
    (cleared megabyteImage fun _ => 0) (cleared_good _ _ _) (cleared_zero _ _ fun _ => rfl) _ hv
  have hleft := cleared_left megabyteImage megabyteImage_room fun _ => 0
  rw [megabyteImage_reserved] at hleft
  obtain ⟨s, hs⟩ := Option.isSome_iff_exists.mp (hsome (by rw [hleft]; decide))
  refine ⟨s, hs, ?_, ?_⟩
  · exact (hmap s hs 0x1234 (outside_iff.mpr (by decide))).1
  · exact (hmap s hs 0x2000 (outside_iff.mpr (by decide))).1

end TetraOS.Memory
