import TetraOS.Memory.LiveTables

/-! `map_page` in histories in which frames are drawn, written to, given back and drawn again. -/

namespace TetraOS.Memory

open Library.ByteMemory Library.TableTree VirtualPage PageTable PhysicalAllocator

/-- The flags of an entry that the processor takes as a mapping. -/
def grants (flag : ℕ) : Bool := readable flag || executable flag && !writable flag

/-- The page of `v` is mapped to `f`, and all other pages outside the direct map are what they were, for the walker of
the source and for the processor. -/
structure MapsOnly (s s' : State Frames) (c : MapCall) : Prop where
  self : getPhysicalAddressOfVirtualAddress s' c.virtualPage = c.physicalFrame + c.virtualPage % 4096
  translates : Canonical c.virtualPage → grants c.flag = true →
    translate s' c.virtualPage = some (c.physicalFrame + c.virtualPage % 4096)
  others : ∀ va, Outside va → pageOf va ≠ pageOf c.virtualPage →
    getPhysicalAddressOfVirtualAddress s' va = getPhysicalAddressOfVirtualAddress s va ∧
      translate s' va = translate s va

structure MapCall.Admissible (c : MapCall) : Prop where
  outside : Outside c.virtualPage
  aligned : c.physicalFrame % 4096 = 0
  ppn : c.physicalFrame / 4096 < 2 ^ 40
  flag : c.flag < 2 ^ 10

/-- The frames that the call draws for tables hold no valid entry, but for one that the call overwrites. -/
def DrawsEmpty (img : Image) (s : State Frames) (c : MapCall) : Prop :=
  EmptyAhead img (getVpn0 c.virtualPage) (missingTables s.mem s.satp c.virtualPage) s.mem

/-- The first two frames hold no valid entry, but for those that `paging_init` overwrites. -/
def StartsEmpty (img : Image) (m : Memory) : Prop :=
  (∀ j, entryOf img (cleared img m).mem 0 j % 2 = 1 → j.val = 256) ∧
    ∀ j, entryOf img (cleared img m).mem 1 j % 2 = 1 → j.val < 4

/-- The kernel after `paging_init` on any memory: frames are drawn, written to, given back and drawn again, and pages
are mapped. `held` are the frames that were drawn for something else than a table. -/
inductive Recycles (img : Image) (m₀ : Memory) : State Frames → Set ℕ → Prop
  | start {s : State Frames} : StartsEmpty img m₀ →
      pagingInit (kallocFrame (reserved img)) (cleared img m₀) = some s → Recycles img m₀ s ∅
  | kallocFrame {s s' : State Frames} {held : Set ℕ} {f : ℕ} : Recycles img m₀ s held →
      s.kallocFrame (kallocFrame (reserved img)) = some (f, s') → Recycles img m₀ s' (insert f held)
  | kfreeFrame {s : State Frames} {held : Set ℕ} {f : ℕ} : Recycles img m₀ s held → f ∈ held →
      Recycles img m₀ { s with mem := kfreeFrame s.mem s.frames f } (held \ {f})
  | write {s : State Frames} {held : Set ℕ} {x : ℕ} (b : UInt8) : Recycles img m₀ s held → Writable img held x →
      Recycles img m₀ { s with mem := Function.update s.mem x b } held
  | mapPage {s s' : State Frames} {held : Set ℕ} {c : MapCall} : Recycles img m₀ s held → c.Admissible →
      DrawsEmpty img s c →
      mapPage (PhysicalAllocator.kallocFrame (reserved img)) s c.virtualPage c.physicalFrame c.flag = some s' →
      Recycles img m₀ s' held

section MapPage

variable {img : Image} {held : Set ℕ} {s s' : State Frames} {c : MapCall} (hr : Room img)
include hr

lemma mapsOnly_of_leafOf (h : LiveTables img held (fun _ => False) s) (h' : LiveTables img held (fun _ => False) s')
    (hc : c.Admissible) (hself : leafOf s' c.virtualPage = some (c.physicalFrame / 4096 * 1024 + (1 ||| c.flag)))
    (hother : ∀ va, Outside va → path va ≠ path c.virtualPage → leafOf s' va = leafOf s va) : MapsOnly s s' c := by
  have hflag : 1 ||| c.flag < 2 ^ 10 := Nat.or_lt_two_pow (by decide) hc.flag
  have hppn := hc.ppn
  have haligned := hc.aligned
  have hlt : s.satp < 2 ^ 52 := (h.lt hr node_nil walk_nil).trans (by decide)
  have hlt' : s'.satp < 2 ^ 52 := (h'.lt hr node_nil walk_nil).trans (by decide)
  have hframe : (c.physicalFrame / 4096 * 1024 + (1 ||| c.flag)) / 1024 % 2 ^ 52 = c.physicalFrame / 4096 := by omega
  have hback : 4096 * (c.physicalFrame / 4096) = c.physicalFrame := by omega
  refine ⟨?_, fun hcan hgrant => ?_, fun va hva hne => ?_⟩
  · rw [getPhysicalAddress_eq_walk hlt' h'.root, walk_path_eq_leafOf, hself, Option.map_some, Option.elim_some, hframe,
      hback]
  · have hodd : (1 ||| c.flag) % 2 = 1 := Nat.or_mod_two_eq_one.mpr (Or.inl rfl)
    have hbit : (1 ||| c.flag) / 2 = c.flag / 2 := by
      rw [Nat.or_div_two]
      exact Nat.zero_or _
    generalize he : c.physicalFrame / 4096 * 1024 + (1 ||| c.flag) = e at *
    have hread : readable e = readable c.flag := decide_eq_decide.mpr (by omega)
    have hwrite : writable e = writable c.flag := decide_eq_decide.mpr (by omega)
    have hexec : executable e = executable c.flag := decide_eq_decide.mpr (by omega)
    have hvalid : decide (e % 2 = 0) = false := decide_eq_false (by omega)
    have hgrants : (readable e || executable e) = true ∧ faulting e = false := by
      rw [faulting, hvalid, hread, hwrite, hexec]
      revert hgrant
      rw [grants]
      cases readable c.flag <;> cases writable c.flag <;> cases executable c.flag <;> simp
    rw [translate_eq_leafOf h' hc.outside hcan, hself, Option.bind_some, hgrants.2, hgrants.1, hframe, hback]
    rfl
  · have hleaf := hother va hva fun hh => hne (path_eq_iff.mp hh)
    refine ⟨?_, ?_⟩
    · rw [getPhysicalAddress_eq_walk hlt' h'.root, getPhysicalAddress_eq_walk hlt h.root, walk_path_eq_leafOf,
        walk_path_eq_leafOf, hleaf]
    · by_cases hcan : Canonical va
      · rw [translate_eq_leafOf h' hva hcan, translate_eq_leafOf h hva hcan, hleaf]
      · rw [translate, if_neg hcan, translate, if_neg hcan]

omit hr in
lemma missingTable_none {q : List (Fin 512)} (hq : walk (slot s.mem) s.satp q = none) :
    missingTable s.mem s.satp q = 1 := by
  rw [missingTable, hq, Option.isSome_none, if_neg (by decide)]

lemma LiveTables.nextTable_inner {E : List (Fin 512) → Prop} {p : List (Fin 512)} {i j last : Fin 512} {t T n : ℕ}
    (h : LiveTables img held E s) (hE : ∀ q, E q → q.length = 4) (hl : p.length < 2)
    (hd : ¬ DirectMapped (p ++ [i] ++ [j])) (hw : walk (slot s.mem) s.satp p = some t)
    (hempty : EmptyAhead img last
      (missingTable s.mem s.satp (p ++ [i]) + (missingTable s.mem s.satp (p ++ [i] ++ [j]) + n)) s.mem)
    (hk : Memory.nextTable (PhysicalAllocator.kallocFrame (reserved img)) s (tableAddress t) i = some (s', T)) :
    ∃ u, T = tableAddress u ∧ LiveTables img held E s' ∧ walk (slot s'.mem) s'.satp (p ++ [i]) = some u ∧
      (∀ q, Node q → q ≠ p ++ [i] → walk (slot s'.mem) s'.satp q = walk (slot s.mem) s.satp q) ∧
      (∀ va, Outside va → ¬ E (path va) → leafOf s' va = leafOf s va) ∧
      EmptyAhead img last (missingTable s'.mem s'.satp (p ++ [i] ++ [j]) + n) s'.mem := by
  have hd' : ¬ DirectMapped (p ++ [i]) := fun hh => hd (hh.of_prefix ⟨_, rfl⟩)
  have hempty' : walk (slot s.mem) s.satp (p ++ [i]) = none → ∀ k, FirstFree img s.mem k → ∀ l,
      ¬ E (p ++ [i] ++ [l]) → entryOf img s.mem k l % 2 = 0 := by
    intro hnone k hk l _
    have hdeeper : walk (slot s.mem) s.satp (p ++ [i] ++ [j]) = none := by
      rw [walk_concat, hnone, Option.bind_none]
    rw [missingTable_none hnone, missingTable_none hdeeper] at hempty
    exact hempty.empty hk fun hh => absurd hh (by omega)
  obtain ⟨u, hT, hlive, hself, hother, hleaf, hahead⟩ := h.nextTable hr hE (by omega) hd' hw hempty' hk
  have hdeeper := hother (p ++ [i] ++ [j]) ⟨by simp; omega, hd⟩ (by simp)
  refine ⟨u, hT, hlive, hself, hother, hleaf, ?_⟩
  rw [missingTable, hdeeper]
  exact hahead _ _ hempty

lemma LiveTables.mapPage (h : LiveTables img held (fun _ => False) s) (hc : c.Admissible) (hempty : DrawsEmpty img s c)
    (hk : mapPage (PhysicalAllocator.kallocFrame (reserved img)) s c.virtualPage c.physicalFrame c.flag = some s') :
    LiveTables img held (fun _ => False) s' ∧ MapsOnly s s' c := by
  obtain ⟨s₁, s₂, s₃, T₁, T₂, T₃, e, hk₁, hk₂, hk₃, rfl, hs⟩ := mapPage_cases hk
  generalize hv : c.virtualPage = v at *
  have hout : Outside v := hv ▸ hc.outside
  have h₀ : LiveTables img held (fun q => q = path v) s := h.mono fun _ hq => hq.elim
  have hE : ∀ q, q = path v → q.length = 4 := by
    rintro q rfl
    simp [path]
  have hd : ∀ p, p <+: path v → ¬ DirectMapped p := fun p hp hh => hout (hh.of_prefix hp)
  have hd₂ : ¬ DirectMapped ([] ++ [getVpn3 v] ++ [getVpn2 v]) := hd _ ⟨_, rfl⟩
  have hd₃ : ¬ DirectMapped ([getVpn3 v] ++ [getVpn2 v] ++ [getVpn1 v]) := hd _ ⟨_, rfl⟩
  have hn₃ : Node [getVpn3 v, getVpn2 v, getVpn1 v] := inner_node hout
  rw [DrawsEmpty, hv, missingTables, Nat.add_assoc] at hempty
  rw [h.root] at hk₁
  obtain ⟨u₁, rfl, h₁, hw₁, ho₁, hl₁, hempty₁⟩ := h₀.nextTable_inner hr hE (by decide) hd₂ walk_nil hempty hk₁
  have hm₃ : missingTable s.mem s.satp [getVpn3 v, getVpn2 v, getVpn1 v] =
      missingTable s₁.mem s₁.satp [getVpn3 v, getVpn2 v, getVpn1 v] := by
    rw [missingTable, missingTable, ho₁ _ hn₃ (by simp)]
  rw [hm₃, ← Nat.add_zero (missingTable s₁.mem s₁.satp [getVpn3 v, getVpn2 v, getVpn1 v])] at hempty₁
  obtain ⟨u₂, rfl, h₂, hw₂, ho₂, hl₂, hempty₂⟩ := h₁.nextTable_inner hr hE (by simp) hd₃ hw₁ hempty₁ hk₂
  -- In the last table the entry of the page is stored next, so it may hold anything.
  obtain ⟨u₃, rfl, h₃, hw₃, ho₃, hl₃, _⟩ := h₂.nextTable hr hE (by simp) hd₃ hw₂ (fun hnone k hk j hj => by
    rw [missingTable_none hnone] at hempty₂
    refine hempty₂.empty hk fun _ hlast => hj ?_
    rw [hlast]
    rfl) hk₃
  have hflag : 1 ||| c.flag < 2 ^ 10 := Nat.or_lt_two_pow (by decide) hc.flag
  have hodd : (1 ||| c.flag) % 2 = 1 := Nat.or_mod_two_eq_one.mpr (Or.inl rfl)
  have hppn := hc.ppn
  rw [leafEntry_eq hc.flag, PhysicalFrame.getPpn_eq, Nat.mod_eq_of_lt hppn,
    setEntry_tableAddress ((h₃.lt hr hn₃ hw₃).trans (by decide))] at hs
  obtain ⟨h', hself, hother⟩ := h₃.storeLeaf hr hn₃ hw₃ rfl rfl (fun q hq => hq) (by omega) (by omega)
    ⟨fun hl => absurd hl (by simp [path]), by omega, fun _ hh => hh.elim⟩ hs
  refine ⟨h', mapsOnly_of_leafOf hr h h' hc (hv.symm ▸ hself) fun va hva hne => ?_⟩
  rw [hv] at hne
  rw [hother va hva hne, hl₃ va hva hne, hl₂ va hva hne, hl₁ va hva hne]

end MapPage

section Start

variable {img : Image} {m : Memory} {s : State Frames} (hr : Room img)
include hr

lemma pagingInit_draws (hk : pagingInit (PhysicalAllocator.kallocFrame (reserved img)) (cleared img m) = some s) :
    ∃ m' n₁ n₂, 1 < reserved img ∧ frame img 0 = 4096 * n₁ ∧ frame img 1 = 4096 * n₂ ∧
      m' = setPageframeAllocated (setPageframeAllocated (cleared img m).mem (flag img 0)) (flag img 1) ∧
      s = { cleared img m with
        mem := setupLoop m' (tableAddress n₁) (tableAddress n₂)
        firstLevelTable := tableAddress n₁
        satp := n₁ } := by
  obtain ⟨f₁, s₁, f₂, s₂, T₁, T₂, hk₁, hk₂, hT₁, hT₂, hs⟩ := pagingInit_cases hk
  have hfree : ∀ i < reserved img, isFree (cleared img m).mem (flag img i) = true := fun i hi =>
    isFree_init m (hi.trans_le (reserved_le_numFrames img))
  have hplaced : (cleared img m).frames = placed img := (cleared_good img hr m).1
  obtain ⟨k₁, hfirst₁, rfl, rfl⟩ := kallocFrame_cases hr hplaced hk₁
  obtain rfl : k₁ = 0 := by
    by_contra hne
    have hzero := hfirst₁.2.2 0 (by omega)
    rw [hfree 0 (by have := hfirst₁.1; omega)] at hzero
    cases hzero
  obtain ⟨k₂, hfirst₂, rfl, rfl⟩ := kallocFrame_cases hr (by exact hplaced) hk₂
  obtain ⟨hlt, htrue, hmin⟩ := hfirst₂
  obtain rfl : k₂ = 1 := by
    have hne : k₂ ≠ 0 := by
      rintro rfl
      rw [isFree_setAllocated hr hfirst₁.1 hlt] at htrue
      simp at htrue
    by_contra hne₁
    have hone := hmin 1 (by omega)
    rw [isFree_setAllocated hr hfirst₁.1 (by omega), hfree 1 (by omega)] at hone
    cases hone
  rw [frame_page hr.start_le 0, ← tableAddress_eq] at hT₁
  rw [frame_page hr.start_le 1, ← tableAddress_eq] at hT₂
  exact ⟨_, _, _, hlt, frame_page hr.start_le 0, frame_page hr.start_le 1, rfl,
    by rw [hs, hT₁, hT₂, PhysicalFrame.getPpn_eq]⟩

section Draws

variable {m' : Memory} {n₁ n₂ : ℕ} (hlt : 1 < reserved img) (hf₁ : frame img 0 = 4096 * n₁)
    (hf₂ : frame img 1 = 4096 * n₂)
    (hm' : m' = setPageframeAllocated (setPageframeAllocated (cleared img m).mem (flag img 0)) (flag img 1))
include hlt hf₁ hf₂

lemma draws_apart : n₁ < 2 ^ 20 ∧ n₂ < 2 ^ 20 ∧ n₁ ≠ n₂ ∧
    ∀ x, ReservedByte img x → x / 4096 ≠ n₁ ∧ x / 4096 ≠ n₂ := by
  have h₁ := frame_div_lt hr (Nat.zero_lt_of_lt hlt)
  have h₂ := frame_div_lt hr hlt
  have hdiv₁ : frame img 0 / 4096 = n₁ := by omega
  have hdiv₂ : frame img 1 / 4096 = n₂ := by omega
  rw [← hdiv₁, ← hdiv₂]
  exact ⟨h₁, h₂, fun hh => Nat.zero_ne_one (frame_div_inj hr hh),
    fun x hx => ⟨reserved_apart hr hx, reserved_apart hr hx⟩⟩

include hm'

omit hf₁ hf₂ in
lemma draws_taken {i : ℕ} (hi : i < 2) : isFree m' (flag img i) = false := by
  rw [hm', isFree_setAllocated hr hlt (by omega), isFree_setAllocated hr (by omega) (by omega)]
  have hcases : i = 0 ∨ i = 1 := by omega
  rcases hcases with rfl | rfl <;> simp

lemma draws_slots (hempty : StartsEmpty img m) :
    (∀ j, j ≠ 256 → slot m' n₁ j = none) ∧ ∀ j : Fin 512, ¬ j.val < 4 → slot m' n₂ j = none := by
  have hdiv₁ : frame img 0 / 4096 = n₁ := by omega
  have hdiv₂ : frame img 1 / 4096 = n₂ := by omega
  have hkept : ∀ i j, entry m' (frame img i / 4096) j = entryOf img (cleared img m).mem i j := by
    intro i j
    refine entry_congr fun x hx => ?_
    have hres : ¬ ReservedByte img x := fun hres => reserved_apart hr hres hx
    rw [hm', setPageframeAllocated, update_flag_outside hlt hres, setPageframeAllocated,
      update_flag_outside (by omega) hres]
  constructor
  · intro j hj
    have hodd := mt (hempty.1 j) fun hval => hj (Fin.ext hval)
    rw [← hkept, hdiv₁] at hodd
    exact slot_eq_none (Nat.mod_two_ne_one.mp hodd)
  · intro j hj
    have hodd := mt (hempty.2 j) hj
    rw [← hkept, hdiv₂] at hodd
    exact slot_eq_none (Nat.mod_two_ne_one.mp hodd)

lemma setupLoop_tableFrame {i n : ℕ} (hi : i < 2) (hn : frame img i = 4096 * n) :
    TableFrame img ∅ (setupLoop m' (tableAddress n₁) (tableAddress n₂)) n := by
  obtain ⟨h₁, h₂, _, hapart⟩ := draws_apart hr hlt hf₁ hf₂
  have hsame : ∀ x, ReservedByte img x → setupLoop m' (tableAddress n₁) (tableAddress n₂) x = m' x := fun x hx =>
    setupLoop_outside h₁ h₂ (hapart x hx).1 (hapart x hx).2
  exact ⟨i, hi.trans_le hlt, hn, (isFree_congr hsame (hi.trans_le hlt)).trans (draws_taken hr hlt hm' hi),
    Set.notMem_empty _⟩

end Draws

lemma LiveTables.start (hempty : StartsEmpty img m)
    (hk : pagingInit (PhysicalAllocator.kallocFrame (reserved img)) (cleared img m) = some s) :
    LiveTables img ∅ (fun _ => False) s := by
  obtain ⟨m', n₁, n₂, hlt, hf₁, hf₂, hm', rfl⟩ := pagingInit_draws hr hk
  obtain ⟨h₁, h₂, hne, -⟩ := draws_apart hr hlt hf₁ hf₂
  obtain ⟨hempty₁, hempty₂⟩ := draws_slots hr hlt hf₁ hf₂ hm' hempty
  -- Behind the root there is one table, and behind that one only the direct map.
  have hfirst := setupLoop_slot_first h₁ h₂ hne hempty₁
  have hsecond := fun (j : Fin 512) hj => setupLoop_slot_second h₁ h₂ hne (hempty₂ j hj) hj
  refine ⟨rfl, (cleared_good img hr m).1, ?_, ?_, fun f hf => absurd hf (Set.notMem_empty f), ?_⟩
  · exact fun p q t hp hq hwp hwq => inj_of_two hfirst hsecond hne hp.2 hq.2 hwp hwq
  · intro p t hp hw
    rcases walk_cases_of_two hfirst hsecond hp.2 hw with ⟨_, rfl⟩ | ⟨_, rfl⟩
    · exact setupLoop_tableFrame hr hlt hf₁ hf₂ hm' (by decide) hf₁
    · exact setupLoop_tableFrame hr hlt hf₁ hf₂ hm' (by decide) hf₂
  · intro p t i hp hw hd _ hv
    obtain ⟨rfl, rfl, rfl⟩ := valid_of_two hfirst hsecond hp hw hd hv
    rw [setupLoop_entry h₁ h₂ hne, if_pos ⟨rfl, rfl⟩]
    exact EntryOk.table _ _ (by simp) h₂

end Start

lemma Recycles.liveTables {img : Image} {m₀ : Memory} {s : State Frames} {held : Set ℕ} (hr : Room img)
    (h : Recycles img m₀ s held) : LiveTables img held (fun _ => False) s := by
  induction h with
  | start hempty hk => exact LiveTables.start hr hempty hk
  | kallocFrame _ hk ih =>
    obtain ⟨k, hfirst, rfl, rfl⟩ := kallocFrame_cases hr ih.frames hk
    exact (ih.draw hr hfirst subset_rfl).1
  | kfreeFrame _ hf ih => exact (ih.release hr hf).1
  | write b _ hx ih => exact (ih.write hr b hx).1
  | mapPage _ hc hempty hk ih => exact (ih.mapPage hr hc hempty hk).1

theorem mapPage_recycled (img : Image) (hr : Room img) (m₀ : Memory) (s : State Frames) (held : Set ℕ)
    (h : Recycles img m₀ s held) (c : MapCall) (hc : c.Admissible) (hempty : DrawsEmpty img s c) (s' : State Frames)
    (hk : mapPage (PhysicalAllocator.kallocFrame (reserved img)) s c.virtualPage c.physicalFrame c.flag = some s') :
    MapsOnly s s' c :=
  ((h.liveTables hr).mapPage hr hc hempty hk).2

namespace LiveTables

section Stale

variable {img : Image} {held : Set ℕ} {E : List (Fin 512) → Prop} {s : State Frames} (hr : Room img)
    (h : LiveTables img held E s)
include hr h

lemma nextTable_of_walk {p : List (Fin 512)} {i : Fin 512} {t u : ℕ} (hp : Node p)
    (hw : walk (slot s.mem) s.satp p = some t) (hu : walk (slot s.mem) s.satp (p ++ [i]) = some u) :
    Memory.nextTable (PhysicalAllocator.kallocFrame (reserved img)) s (tableAddress t) i =
      some (s, tableAddress u) := by
  have ht : t < 2 ^ 52 := (h.lt hr hp hw).trans (by decide)
  rw [walk_concat, hw, Option.bind_some] at hu
  obtain ⟨hv, rfl⟩ := slot_eq_some hu
  simp only [Memory.nextTable, isEntryValid_tableAddress ht, hv, decide_true, if_true, Option.map_some,
    tableAt_tableAddress ht]

lemma kallocFrame_firstFree {k : ℕ} (hk : FirstFree img s.mem k) :
    s.kallocFrame (PhysicalAllocator.kallocFrame (reserved img)) =
      some (frame img k, { s with mem := setPageframeAllocated s.mem (flag img k) }) := by
  have hfound : (PhysicalAllocator.kallocFrame (reserved img) s.mem (placed img)).isSome := by
    rw [PhysicalAllocator.kallocFrame, Option.isSome_map]
    exact findFree_isSome hk.1 hk.2.1
  have hsome : ∃ r, s.kallocFrame (PhysicalAllocator.kallocFrame (reserved img)) = some r := by
    obtain ⟨⟨f, m, a⟩, hf⟩ := Option.isSome_iff_exists.mp hfound
    exact ⟨_, by rw [State.kallocFrame, h.frames, hf, Option.map_some]⟩
  obtain ⟨⟨f, s₁⟩, hs₁⟩ := hsome
  obtain ⟨k', hk', rfl, rfl⟩ := kallocFrame_cases hr h.frames hs₁
  rw [hs₁, hk'.unique hk]

lemma nextTable_of_firstFree {p : List (Fin 512)} {i : Fin 512} {t k : ℕ} (hE : ∀ q, E q → q.length = 4)
    (hl : p.length < 3) (hd : ¬ DirectMapped (p ++ [i])) (hw : walk (slot s.mem) s.satp p = some t)
    (hnone : walk (slot s.mem) s.satp (p ++ [i]) = none) (hk : FirstFree img s.mem k)
    (hempty : ∀ j, ¬ E (p ++ [i] ++ [j]) → entryOf img s.mem k j % 2 = 0) :
    ∃ s', Memory.nextTable (PhysicalAllocator.kallocFrame (reserved img)) s (tableAddress t) i =
      some (s', tableAddress (frame img k / 4096)) ∧ TableDrawn img held E s s' (p ++ [i]) k := by
  have hp : Node p := Node.of_concat hd (by omega)
  have ht : t < 2 ^ 52 := (h.lt hr hp hw).trans (by decide)
  rw [walk_concat, hw, Option.bind_some] at hnone
  have hv : ¬ entry s.mem t i % 2 = 1 := by
    intro hv
    rw [slot, target, if_pos hv] at hnone
    cases hnone
  have hdrawn := h.drawTable hr hE hl hd hw hnone hk hempty rfl
  refine ⟨_, ?_, hdrawn⟩
  have hu := tableAt_of_walk ht ((hdrawn.other p hp (by simp)).trans hw) hdrawn.self
  simp only [Memory.nextTable, isEntryValid_tableAddress ht, hv, decide_false, Bool.false_eq_true, if_false,
    h.kallocFrame_firstFree hr hk, Option.map_some, ← hu]

omit h in
lemma mapPage_drawsLast {v t k : ℕ} (h : LiveTables img held (fun _ => False) s) (hv : Outside v)
    (hw : walk (slot s.mem) s.satp [getVpn3 v, getVpn2 v] = some t)
    (hnone : walk (slot s.mem) s.satp [getVpn3 v, getVpn2 v, getVpn1 v] = none) (hk : FirstFree img s.mem k) :
    ∃ s', TableDrawn img held (fun q => q.length = 4) s s' [getVpn3 v, getVpn2 v, getVpn1 v] k ∧ ∀ f flag,
      Memory.mapPage (PhysicalAllocator.kallocFrame (reserved img)) s v f flag =
        some { s' with
          mem := setEntry s'.mem (tableAddress (frame img k / 4096)) (getVpn0 v)
            (createValidPageTableEntry (PhysicalFrame.getPpn f) ||| flag) } := by
  have hd : ∀ p, p <+: path v → ¬ DirectMapped p := fun p hp hh => hv (hh.of_prefix hp)
  have hn : ∀ p, p <+: path v → p.length < 4 → Node p := fun p hp hl => ⟨hl, hd p hp⟩
  have hsplit : walk (slot s.mem) s.satp ([getVpn3 v] ++ [getVpn2 v]) = some t := hw
  obtain ⟨u, hu, -⟩ := Option.bind_eq_some_iff.mp ((walk_concat ..).symm.trans hsplit)
  have h₁ := h.nextTable_of_walk hr node_nil walk_nil (i := getVpn3 v) hu
  have h₂ := h.nextTable_of_walk hr (hn _ ⟨_, rfl⟩ (by simp)) hu (i := getVpn2 v) hw
  have h₀ : LiveTables img held (fun q => q.length = 4) s := h.mono fun _ hq => hq.elim
  obtain ⟨s', h₃, hdrawn⟩ := h₀.nextTable_of_firstFree hr (fun _ hq => hq) (by simp) (hd _ ⟨_, rfl⟩) hw hnone hk
    fun j hj => absurd rfl hj
  rw [← h.root] at h₁
  refine ⟨s', hdrawn, fun f flag => ?_⟩
  simp only [Memory.mapPage, h₁, h₂, h₃, Option.bind_eq_bind, Option.bind_some]

omit h in
/-- The last table keeps what its last owner has left, and other pages are mapped by it. -/
lemma mapPage_stale {v va t k : ℕ} (h : LiveTables img held (fun _ => False) s) (hv : Outside v) (hva : Outside va)
    (hsame : [getVpn3 va, getVpn2 va, getVpn1 va] = [getVpn3 v, getVpn2 v, getVpn1 v]) (hne : getVpn0 va ≠ getVpn0 v)
    (hw : walk (slot s.mem) s.satp [getVpn3 v, getVpn2 v] = some t)
    (hnone : walk (slot s.mem) s.satp [getVpn3 v, getVpn2 v, getVpn1 v] = none) (hk : FirstFree img s.mem k)
    (hleft : entryOf img s.mem k (getVpn0 va) % 2 = 1) {f flag : ℕ} (hflag : flag < 2 ^ 10) :
    getPhysicalAddressOfVirtualAddress s va = 0 ∧
      ∃ s', Memory.mapPage (PhysicalAllocator.kallocFrame (reserved img)) s v f flag = some s' ∧
        getPhysicalAddressOfVirtualAddress s' va =
          4096 * (entryOf img s.mem k (getVpn0 va) / 1024 % 2 ^ 52) + va % 4096 := by
  have hn₃ : Node [getVpn3 v, getVpn2 v, getVpn1 v] := inner_node hv
  have hroot : s.satp < 2 ^ 52 := (h.lt hr node_nil walk_nil).trans (by decide)
  constructor
  · rw [getPhysicalAddress_eq_walk hroot h.root, walk_path_eq_leafOf, leafOf, hsame, hnone]
    rfl
  · obtain ⟨s₃, hdrawn, hmap⟩ := mapPage_drawsLast hr h hv hw hnone hk
    have hself : walk (slot s₃.mem) s₃.satp [getVpn3 v, getVpn2 v, getVpn1 v] = some (frame img k / 4096) := hdrawn.self
    have hlive := hdrawn.live
    have hlow := hlive.lt hr hn₃ hself
    have hroot₃ := hlive.lt hr node_nil walk_nil
    refine ⟨_, hmap f flag, ?_⟩
    have hflag' : 1 ||| flag < 2 ^ 10 := Nat.or_lt_two_pow (by decide) hflag
    have hodd : (1 ||| flag) % 2 = 1 := Nat.or_mod_two_eq_one.mpr (Or.inl rfl)
    have hpath : path va ≠ [getVpn3 v, getVpn2 v] ++ [getVpn1 v] ++ [getVpn0 v] := by
      intro hpath
      rw [path_eq_concat, hsame] at hpath
      exact hne (List.singleton_inj.mp (List.append_cancel_left hpath))
    have hleaf := hlive.leafOf_storeLast hn₃ hself rfl (by omega)
      (by omega : (PhysicalFrame.getPpn f % 2 ^ 40 * 1024 + (1 ||| flag)) % 2 = 1) hva hpath
    have hstale : leafOf s₃ va = some (entryOf img s.mem k (getVpn0 va)) := by
      rw [leafOf, hsame, hself, Option.bind_some, hdrawn.content, if_pos hleft]
    rw [setEntry_tableAddress (hlow.trans (by decide)), leafEntry_eq hflag]
    refine (getPhysicalAddress_eq_walk (by exact hroot₃.trans (by decide)) (by exact hlive.root) va).trans ?_
    rw [walk_path_eq_leafOf, hleaf, hstale]
    rfl

end Stale

end LiveTables

section Refill

variable {img : Image} {m₀ : Memory} {s : State Frames} {held : Set ℕ} (hr : Room img)
include hr

lemma firstFree_refill {m : Memory} {k x : ℕ} {b : UInt8} (hk : FirstFree img m k) (hx : ¬ ReservedByte img x) :
    FirstFree img (setPageframeFree (Function.update (setPageframeAllocated m (flag img k)) x b) (flag img k)) k := by
  have hflags : ∀ j < reserved img, isFree (Function.update (setPageframeAllocated m (flag img k)) x b) (flag img j) =
      isFree (setPageframeAllocated m (flag img k)) (flag img j) := fun j hj => isFree_congr (fun y hy => by
    apply Function.update_of_ne
    rintro rfl
    exact hx hy) hj
  refine ⟨hk.1, by rw [isFree_setFree hr hk.1 hk.1]; simp, fun j hj => ?_⟩
  have hlt := hj.trans hk.1
  have hne : j ≠ k := by omega
  rw [isFree_setFree hr hk.1 hlt, hflags j hlt, isFree_setAllocated hr hk.1 hlt, hk.2.2 j hj]
  simp [hne]

lemma Recycles.refill (h : Recycles img m₀ s held) {k x : ℕ} (hk : FirstFree img s.mem k)
    (hx : frame img k ≤ x ∧ x < frame img k + frameSize) (b : UInt8) :
    ∃ s', Recycles img m₀ s' held ∧ FirstFree img s'.mem k ∧ s'.mem x = b ∧
      (∀ y, ¬ ReservedByte img y → y ≠ x → s'.mem y = s.mem y) ∧ s'.satp = s.satp ∧
      ∀ q, Inside Node q → walk (slot s'.mem) s'.satp q = walk (slot s.mem) s.satp q := by
  have hlive := h.liveTables hr
  have hin : frame img k ∈ insert (frame img k) held := Set.mem_insert _ _
  have hw : Writable img (insert (frame img k) held) x := Or.inl ⟨frame img k, hin, hx⟩
  obtain ⟨hlive₁, hwalk₁, _⟩ := hlive.draw hr hk subset_rfl
  obtain ⟨hlive₂, hwalk₂⟩ := hlive₁.write hr b hw
  obtain ⟨_, hwalk₃⟩ := hlive₂.release hr hin
  have hres : ¬ ReservedByte img x := by
    intro hres
    have hne := reserved_apart (i := k) hr hres
    have hmod := frame_mod hr.start_le k
    simp only [frameSize] at hx
    omega
  have hfree : ∀ m, PhysicalAllocator.kfreeFrame m s.frames (frame img k) = setPageframeFree m (flag img k) := by
    intro m
    rw [hlive.frames, hr.kfreeFrame_frame (hk.1.trans_le (reserved_le_numFrames img))]
  have hrun := ((h.kallocFrame (hlive.kallocFrame_firstFree hr hk)).write b hw).kfreeFrame hin
  rw [Set.insert_sdiff_self_of_notMem (hlive.not_held_of_free hr hk)] at hrun
  refine ⟨_, hrun, ?_, ?_, ?_, rfl, fun q hq => (hwalk₃ q hq).trans ((hwalk₂ q hq).trans (hwalk₁ q hq))⟩
  · change FirstFree img (PhysicalAllocator.kfreeFrame _ s.frames _) k
    rw [hfree]
    exact firstFree_refill hr hk hres
  · change PhysicalAllocator.kfreeFrame _ s.frames _ x = b
    rw [hfree, setPageframeFree, update_flag_outside hk.1 hres]
    exact Function.update_self ..
  · intro y hy hyx
    change PhysicalAllocator.kfreeFrame _ s.frames _ y = s.mem y
    rw [hfree, setPageframeFree, update_flag_outside hk.1 hy]
    exact (Function.update_of_ne hyx ..).trans (update_flag_outside hk.1 hy)

end Refill

section Megabyte

lemma started_megabyte : ∃ s, Recycles megabyteImage (fun _ => 0) s ∅ ∧
    Tree (source megabyteImage megabyteImage_room) NoLeaf AnyEntry s ∧
    (source megabyteImage megabyteImage_room).left s.mem s.frames = 32766 ∧
    ∀ q, ¬ DirectMapped q → q ≠ [] → q ≠ [256] → walk (slot s.mem) s.satp q = none := by
  have hleft := cleared_left megabyteImage megabyteImage_room fun _ => 0
  rw [megabyteImage_reserved] at hleft
  have hzero := cleared_zero megabyteImage megabyteImage_room fun _ => rfl
  obtain ⟨s, hs⟩ := pagingInit_isSome (cleared_good megabyteImage megabyteImage_room fun _ => 0) (by rw [hleft]; decide)
  have hok : ∀ q n, q.length < 4 → n < 2 ^ 20 → AnyEntry q (n * 1024 + 1) := fun _ _ _ _ => trivial
  obtain ⟨n₁, s₁, n₂, s₂, _, _, _, htree, hb⟩ := pagingInit_spec (L := NoLeaf) hok (cleared_good _ _ _)
    hzero hs
  have hl := hb.left
  have hempty : ∀ i < reserved megabyteImage, ∀ j,
      entryOf megabyteImage (cleared megabyteImage fun _ => 0).mem i j = 0 := fun i hi j =>
    entry_zero (hzero _ ⟨i, hi, frame_page megabyteImage_room.start_le i,
      isFree_init _ (hi.trans_le (reserved_le_numFrames _))⟩)
  rw [megabyteImage_reserved] at hempty
  refine ⟨s, .start ⟨fun j hj => ?_, fun j hj => ?_⟩ hs, htree, by omega, ?_⟩
  · rw [hempty 0 (by decide)] at hj
    cases hj
  · rw [hempty 1 (by decide)] at hj
    cases hj
  · rw [hb.satp]
    exact hb.empty

lemma drawsEmpty_of_tree {img : Image} {hr : Room img} {L : List (Fin 512) → Prop} {Ok : List (Fin 512) → ℕ → Prop}
    {s : State Frames} (h : Tree (source img hr) L Ok s) (c : MapCall) : DrawsEmpty img s c :=
  EmptyAhead.of_free hr fun i hi hfree j => by
    rw [entryOf, entry_zero (h.zero _ ⟨i, hi, frame_page hr.start_le i, hfree⟩)]

lemma drawsEmpty_of_last {img : Image} {s : State Frames} {c : MapCall} {t k : ℕ}
    (hw : walk (slot s.mem) s.satp [getVpn3 c.virtualPage, getVpn2 c.virtualPage] = some t)
    (hnone : walk (slot s.mem) s.satp [getVpn3 c.virtualPage, getVpn2 c.virtualPage, getVpn1 c.virtualPage] = none)
    (hk : FirstFree img s.mem k) (hempty : ∀ j, j ≠ getVpn0 c.virtualPage → entryOf img s.mem k j % 2 = 0) :
    DrawsEmpty img s c := by
  have hsplit : walk (slot s.mem) s.satp ([getVpn3 c.virtualPage] ++ [getVpn2 c.virtualPage]) = some t := hw
  obtain ⟨u, hu, -⟩ := Option.bind_eq_some_iff.mp ((walk_concat ..).symm.trans hsplit)
  rw [DrawsEmpty, missingTables, missingTable_none hnone, missingTable, missingTable, hu, hw]
  intro i hi
  obtain rfl := hi.unique hk
  refine ⟨fun j hj => ⟨rfl, ?_⟩, trivial⟩
  by_contra hne
  rw [hempty j hne] at hj
  cases hj

lemma firstPage_admissible : MapCall.Admissible ⟨0x1000, 0x80200000, 0xF⟩ :=
  ⟨outside_iff.mpr (by decide), by decide, by decide, by decide⟩

lemma entryOf_odd {img : Image} (hr : Room img) {m : Memory} {k : ℕ} {j : Fin 512}
    (h : (m (frame img k + 8 * j)).toNat % 2 = 1) : entryOf img m k j % 2 = 1 := by
  rw [entryOf, entry, ← frame_page hr.start_le, load]
  omega

lemma firstPage_megabyte : ∃ s k t, Recycles megabyteImage (fun _ => 0) s ∅ ∧ FirstFree megabyteImage s.mem k ∧
    Zero s.mem (frame megabyteImage k) 4096 ∧ walk (slot s.mem) s.satp [0, 0] = some t ∧
    walk (slot s.mem) s.satp [0, 0, 1] = none := by
  obtain ⟨s₁, hrun₁, htree₁, hleft₁, hempty⟩ := started_megabyte
  have hc := firstPage_admissible
  have hle := missingTables_le s₁.mem s₁.satp 0x1000
  obtain ⟨s, hs⟩ := htree₁.mapPage_isSome (fun _ _ _ _ => trivial) hc.outside (hle.trans (by omega)) 0x80200000 0xF
  obtain ⟨htree, hm⟩ := htree₁.mapPage (fun _ _ _ _ => trivial) hc.outside rfl (by decide) rfl trivial False.elim hs
  have hleft := hm.left
  obtain ⟨_, u, hu⟩ := htree.good
  have hcount := hu.framesLeft_eq
  rw [source_left, source_left] at hleft
  rw [source_left] at hleft₁
  change framesLeft _ s₁.mem = framesLeft _ s.mem + missingTables s₁.mem s₁.satp 0x1000 at hleft
  have hlt : u < reserved megabyteImage := by omega
  have hpath : path 0x1000 = [0, 0] ++ [0, 1] := by decide
  have hself := hm.self
  change walk _ _ (path 0x1000) = _ at hself
  rw [hpath, walk_append] at hself
  obtain ⟨t, ht, _⟩ := Option.bind_eq_some_iff.mp hself
  have hd : ¬ DirectMapped [0, 0, 1] := by
    rintro ⟨j, rest, hj, _⟩
    cases hj
  have hfree := (hu.free u hlt).mpr le_rfl
  have hpage := frame_page megabyteImage_room.start_le u
  refine ⟨s, u, t, hrun₁.mapPage hc (drawsEmpty_of_tree htree₁ _) hs, ⟨hlt, hfree, fun j hj => ?_⟩,
    hpage ▸ htree.zero _ ⟨u, hlt, hpage, hfree⟩, hm.satp ▸ ht, ?_⟩
  · have hfree := hu.free j (hj.trans hlt)
    exact Bool.eq_false_of_not_eq_true fun hh => absurd (hfree.mp hh) (by omega)
  · rw [hm.satp, hm.other _ (Node.inside ⟨by decide, hd⟩) (by rw [hpath]; decide)]
    exact hempty _ hd (by decide) (by decide)

/-- A frame is drawn, its owner leaves one byte in it and gives it back. -/
lemma refilled_megabyte {o : ℕ} (ho : o < 4096) : ∃ s k t, Recycles megabyteImage (fun _ => 0) s ∅ ∧
    FirstFree megabyteImage s.mem k ∧ s.mem (frame megabyteImage k + o) = 0xF ∧
    (∀ x, frame megabyteImage k ≤ x → x < frame megabyteImage k + 4096 → x ≠ frame megabyteImage k + o → s.mem x = 0) ∧
    walk (slot s.mem) s.satp [getVpn3 0x201000, getVpn2 0x201000] = some t ∧
    walk (slot s.mem) s.satp [getVpn3 0x201000, getVpn2 0x201000, getVpn1 0x201000] = none := by
  have hr := megabyteImage_room
  obtain ⟨s₂, k, t, hrun₂, hk₂, hzero, hw, hnone⟩ := firstPage_megabyte
  obtain ⟨s, hrun, hk, hb, hkept, hsatp, hwalk⟩ := hrun₂.refill hr hk₂ (x := frame megabyteImage k + o)
    (by simp only [frameSize]; omega) 0xF
  have htwo : [getVpn3 0x201000, getVpn2 0x201000] = [0, 0] := by decide
  have hthree : [getVpn3 0x201000, getVpn2 0x201000, getVpn1 0x201000] = [0, 0, 1] := by decide
  have hv : Outside 0x201000 := outside_iff.mpr (by decide)
  have hinside := inside_path hv
  have hw' := hwalk _ (hinside.of_prefix (p := [getVpn3 0x201000, getVpn2 0x201000]) ⟨_, rfl⟩)
  have hnone' := hwalk _ (hinside.of_prefix (p := [getVpn3 0x201000, getVpn2 0x201000, getVpn1 0x201000]) ⟨_, rfl⟩)
  rw [htwo, hw, ← htwo] at hw'
  rw [hthree, hnone, ← hthree] at hnone'
  refine ⟨s, k, t, hrun, hk, hb, fun x hx hx' hne => ?_, hw', hnone'⟩
  have hpage := frame_page hr.start_le k
  rw [hkept x (fun hres => reserved_apart (i := k) hr hres (by omega)) hne]
  exact hzero x hx hx'

/-- The byte is an entry that is valid, and the call draws the frame for its last table. The entry is the one that the
call overwrites. -/
theorem mapPage_recycled_refilled : ∃ s s' k, Recycles megabyteImage (fun _ => 0) s ∅ ∧
    FirstFree megabyteImage s.mem k ∧ entryOf megabyteImage s.mem k 1 % 2 = 1 ∧
    walk (slot s.mem) s.satp [0, 0, 1] = none ∧ MapsOnly s s' ⟨0x201000, 0x80300000, 0xF⟩ := by
  have hr := megabyteImage_room
  obtain ⟨s, k, t, hrun, hk, hb, hzero, hw, hnone⟩ := refilled_megabyte (o := 8) (by decide)
  have hv : Outside 0x201000 := outside_iff.mpr (by decide)
  have hlast : getVpn0 0x201000 = 1 := by decide
  have hthree : [getVpn3 0x201000, getVpn2 0x201000, getVpn1 0x201000] = [0, 0, 1] := by decide
  have hempty : DrawsEmpty megabyteImage s ⟨0x201000, 0x80300000, 0xF⟩ := by
    refine drawsEmpty_of_last hw hnone hk fun j hj => ?_
    have hj' : j.val ≠ 1 := fun hval => hj (Fin.ext (by rw [hval, hlast]; rfl))
    have hpage := frame_page hr.start_le k
    have hrest : Zero s.mem (4096 * (frame megabyteImage k / 4096) + 8 * j) 8 := fun x hx hx' =>
      hzero x (by omega) (by omega) (by omega)
    rw [entryOf, entry, hrest.load le_rfl le_rfl]
  have hodd : entryOf megabyteImage s.mem k 1 % 2 = 1 := entryOf_odd hr (by
    change (s.mem (frame megabyteImage k + 8)).toNat % 2 = 1
    rw [hb]
    rfl)
  obtain ⟨_, _, hmap⟩ := LiveTables.mapPage_drawsLast hr (hrun.liveTables hr) hv hw hnone hk
  have hmaps := mapPage_recycled megabyteImage hr _ s ∅ hrun ⟨0x201000, 0x80300000, 0xF⟩
    ⟨hv, by decide, by decide, by decide⟩ hempty _ (hmap 0x80300000 0xF)
  rw [hthree] at hnone
  exact ⟨s, _, k, hrun, hk, hodd, hnone, hmaps⟩

theorem mapPage_recycled_stale : ∃ s held s' c, Recycles megabyteImage (fun _ => 0) s held ∧ c.Admissible ∧
    mapPage (kallocFrame (reserved megabyteImage)) s c.virtualPage c.physicalFrame c.flag = some s' ∧
    getPhysicalAddressOfVirtualAddress s 0x202001 = 0 ∧ getPhysicalAddressOfVirtualAddress s' 0x202001 ≠ 0 ∧
    ¬ MapsOnly s s' c := by
  have hr := megabyteImage_room
  obtain ⟨s, k, t, hrun, hk, hb, _, hw, hnone⟩ := refilled_megabyte (o := 16) (by decide)
  have hv : Outside 0x201000 := outside_iff.mpr (by decide)
  have hva : Outside 0x202001 := outside_iff.mpr (by decide)
  -- The first entry of the last owner's frame that is still valid belongs to the page at `0x202000`.
  have hleft : entryOf megabyteImage s.mem k (getVpn0 0x202001) % 2 = 1 := entryOf_odd hr (by
    change (s.mem (frame megabyteImage k + 16)).toNat % 2 = 1
    rw [hb]
    rfl)
  obtain ⟨hbefore, s', hs', hafter⟩ := LiveTables.mapPage_stale hr (hrun.liveTables hr) hv hva (by decide) (by decide)
    hw hnone hk hleft (f := 0x80300000) (show 0xF < 2 ^ 10 by decide)
  have hne : getPhysicalAddressOfVirtualAddress s' 0x202001 ≠ 0 := by omega
  refine ⟨s, ∅, s', ⟨0x201000, 0x80300000, 0xF⟩, hrun, ⟨hv, by decide, by decide, by decide⟩, hs', hbefore, hne, ?_⟩
  intro hmaps
  have hkept := (hmaps.others 0x202001 hva (by decide)).1
  exact hne (hkept.trans hbefore)

end Megabyte

end TetraOS.Memory
