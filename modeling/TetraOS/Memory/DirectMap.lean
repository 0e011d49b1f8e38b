import TetraOS.Memory.MapRefinement
import TetraOS.Memory.AddressSpace

/-! The page tables as the processor sees them, after `paging_init` and any sequence of `map_page` calls. -/

namespace TetraOS.Memory

open Library.ByteMemory Library.TableTree VirtualPage PhysicalAllocator PageTable

variable {α : Type}

structure MapCall.Permitted (K : List (Fin 512) → Prop) (c : MapCall) : Prop where
  outside : Outside c.virtualPage
  flag : c.flag < 2 ^ 10
  leaf : K (path c.virtualPage) → readable (1 ||| c.flag) = true

structure Walked (S : FrameSource α) (K : List (Fin 512) → Prop) (calls : List MapCall) (s : State α) : Prop where
  tree : Tree S NoLeaf (EntryOk K) s
  map : ∀ va, Outside va → walk (slot s.mem) s.satp (path va) = (lastFrame calls va).map fun f => f / 4096 % 2 ^ 40

namespace Walked

variable {S : FrameSource α} {K : List (Fin 512) → Prop} {calls : List MapCall} {s s' : State α}

lemma pagingInit (hgood : S.Good s.mem s.frames) (hzero : ∀ t, S.Free s.mem s.frames t → Zero s.mem (4096 * t) 4096)
    (hk : pagingInit S.kallocFrame s = some s') :
    Walked S K [] s' ∧ S.left s.mem s.frames = S.left s'.mem s'.frames + 2 := by
  obtain ⟨n₁, s₁, n₂, s₂, _, _, _, htree, hb⟩ := pagingInit_spec EntryOk.table hgood hzero hk
  refine ⟨⟨htree, fun va hva => ?_⟩, hb.left⟩
  rw [hb.satp]
  exact hb.empty (path va) hva (by simp [path]) (by simp [path])

lemma mapPage (h : Walked S K calls s) {c : MapCall} (hc : c.Permitted K)
    (hk : mapPage S.kallocFrame s c.virtualPage c.physicalFrame c.flag = some s') :
    Walked S K (calls ++ [c]) s' ∧
      S.left s.mem s.frames = S.left s'.mem s'.frames + missingTables s.mem s.satp c.virtualPage := by
  have hflag : 1 ||| c.flag < 2 ^ 10 := Nat.or_lt_two_pow (by decide) hc.flag
  have hppn : c.physicalFrame / 4096 % 2 ^ 40 < 2 ^ 40 := Nat.mod_lt _ (by decide)
  have he : createValidPageTableEntry (PhysicalFrame.getPpn c.physicalFrame) ||| c.flag =
      c.physicalFrame / 4096 % 2 ^ 40 * 1024 + (1 ||| c.flag) := by rw [leafEntry_eq hc.flag, PhysicalFrame.getPpn_eq]
  have hok : EntryOk K (path c.virtualPage) (c.physicalFrame / 4096 % 2 ^ 40 * 1024 + (1 ||| c.flag)) := by
    refine ⟨fun hl => absurd hl (by simp [path]), by omega, fun _ hK => ?_⟩
    have hr := hc.leaf hK
    simp only [readable, decide_eq_true_eq] at hr ⊢
    omega
  obtain ⟨htree, hm⟩ := h.tree.mapPage EntryOk.table hc.outside he.symm (by omega)
    (n := c.physicalFrame / 4096 % 2 ^ 40) (by omega) hok False.elim hk
  exact ⟨⟨htree, fun va hva => hm.lastFrame (g := fun f => f / 4096 % 2 ^ 40) h.map hva⟩, hm.left⟩

lemma mapCalls {more : List MapCall} (hv : ∀ c ∈ more, c.Permitted K) (h : Walked S K calls s)
    (hk : mapCalls S.kallocFrame s more = some s') : Walked S K (calls ++ more) s' :=
  mapCalls_run (fun h hc hk => (h.mapPage hc hk).1) hv h hk

lemma mapCalls_isSome {more : List MapCall} (hv : ∀ c ∈ more, c.Permitted K) (h : Walked S K calls s)
    (hl : 3 * more.length ≤ S.left s.mem s.frames) : ∃ s', Memory.mapCalls S.kallocFrame s more = some s' := by
  refine mapCalls_returns (fun {calls s c} h hc hl => ?_) hv h hl
  have hmiss := missingTables_le s.mem s.satp c.virtualPage
  obtain ⟨s₁, hk₁⟩ := h.tree.mapPage_isSome EntryOk.table hc.outside (by omega) c.physicalFrame c.flag
  obtain ⟨h₁, hl₁⟩ := h.mapPage hc hk₁
  exact ⟨s₁, hk₁, h₁, by omega⟩

variable {s₀ : State α} (hgood : S.Good s₀.mem s₀.frames)
    (hzero : ∀ t, S.Free s₀.mem s₀.frames t → Zero s₀.mem (4096 * t) 4096) (hcalls : ∀ c ∈ calls, c.Permitted K)
include hgood hzero hcalls

lemma setup (hk : setup S.kallocFrame s₀ calls = some s) : Walked S K calls s := by
  obtain ⟨s₁, hk₁, hk₂⟩ := Option.bind_eq_some_iff.mp hk
  exact (pagingInit hgood hzero hk₁).1.mapCalls hcalls hk₂

lemma setup_isSome (hl : 2 + 3 * calls.length ≤ S.left s₀.mem s₀.frames) :
    (Memory.setup S.kallocFrame s₀ calls).isSome := by
  obtain ⟨s₁, hk₁⟩ := pagingInit_isSome hgood (by omega)
  obtain ⟨h₁, hl₁⟩ := pagingInit (K := K) hgood hzero hk₁
  obtain ⟨s, hk⟩ := h₁.mapCalls_isSome hcalls (by omega)
  rw [Memory.setup, hk₁, Option.bind_some, hk, Option.isSome_some]

end Walked

section Dereferenced

def tablesOn (m : Memory) (table : ℕ) : List (Fin 512) → List ℕ
  | [] => [table]
  | i :: rest => table :: if isEntryValid m table i then tablesOn m (tableAt m table i) rest else []

def dereferenced (s : State α) (va : ℕ) : List ℕ :=
  tablesOn s.mem s.firstLevelTable [getVpn3 va, getVpn2 va, getVpn1 va]

def tablesMade (k : FrameAlloc α) (s : State α) (table : ℕ) : List (Fin 512) → List (State α × ℕ)
  | [] => [(s, table)]
  | i :: rest => (s, table) ::
    match nextTable k s table i with
    | none => []
    | some (s, table) => tablesMade k s table rest

def mapPageTables (k : FrameAlloc α) (s : State α) (va : ℕ) : List (State α × ℕ) :=
  tablesMade k s s.firstLevelTable [getVpn3 va, getVpn2 va, getVpn1 va]

variable {S : FrameSource α} {L K : List (Fin 512) → Prop} {s : State α} {va T : ℕ} {p rest : List (Fin 512)} {t : ℕ}

lemma path_eq_tables (va : ℕ) : path va = [] ++ [getVpn3 va, getVpn2 va, getVpn1 va] ++ [getVpn0 va] := rfl

lemma translate_table (h : Tree S L (EntryOk K) s) (hp : Node p) (hw : walk (slot s.mem) s.satp p = some t) {x : ℕ}
    (hx : x < 4096) : translate s (tableAddress t + x) = some (physical (tableAddress t + x)) := by
  have hlow := h.low p t hp.owned hw
  have haddr : tableAddress t + x = virtualOffset + (4096 * t + x) := by
    rw [tableAddress_eq]
    simp only [virtualOffset]
    omega
  rw [haddr, translate_direct h (by omega), physical_eq]
  exact congrArg some (by simp only [virtualOffset]; omega)

lemma mem_tablesOn (h : Tree S L (EntryOk K) s) (hd : ¬ DirectMapped (p ++ rest)) (hl : (p ++ rest).length < 4)
    (hw : walk (slot s.mem) s.satp p = some t) (hT : T ∈ tablesOn s.mem (tableAddress t) rest) :
    ∃ q u, Node q ∧ walk (slot s.mem) s.satp q = some u ∧ T = tableAddress u := by
  induction rest generalizing p t with
  | nil =>
    rw [List.append_nil] at hd hl
    exact ⟨p, t, ⟨hl, hd⟩, hw, List.mem_singleton.mp hT⟩
  | cons i rest ih =>
    have hp : Node p := by
      rw [List.length_append] at hl
      exact ⟨by omega, fun hh => hd (hh.of_prefix (List.prefix_append p _))⟩
    have ht : t < 2 ^ 52 := h.lt_of_node hp hw
    rcases List.mem_cons.mp hT with rfl | hT
    · exact ⟨p, t, hp, hw, rfl⟩
    rw [isEntryValid_tableAddress ht, tableAt_tableAddress ht] at hT
    split at hT
    · rename_i hv
      rw [decide_eq_true_iff] at hv
      rw [List.append_cons] at hd hl
      refine ih hd hl ?_ hT
      rw [walk_concat, hw, Option.bind_some, slot, target, if_pos hv]
    · cases hT

lemma mem_tablesMade (h : Tree S L (EntryOk K) s) (hd : ¬ DirectMapped (p ++ rest)) (hl : (p ++ rest).length < 4)
    (hw : walk (slot s.mem) s.satp p = some t) {s' : State α}
    (hT : (s', T) ∈ tablesMade S.kallocFrame s (tableAddress t) rest) :
    Tree S L (EntryOk K) s' ∧ ∃ q u, Node q ∧ walk (slot s'.mem) s'.satp q = some u ∧ T = tableAddress u := by
  induction rest generalizing p t s with
  | nil =>
    rw [List.append_nil] at hd hl
    obtain ⟨rfl, rfl⟩ := Prod.mk.inj (List.mem_singleton.mp hT)
    exact ⟨h, p, t, ⟨hl, hd⟩, hw, rfl⟩
  | cons i rest ih =>
    have hlp : p.length < 3 := by
      rw [List.length_append, List.length_cons] at hl
      omega
    rw [tablesMade] at hT
    rcases List.mem_cons.mp hT with heq | hT
    · obtain ⟨rfl, rfl⟩ := Prod.mk.inj heq
      exact ⟨h, p, t, ⟨by omega, fun hh => hd (hh.of_prefix (List.prefix_append p _))⟩, hw, rfl⟩
    split at hT
    · cases hT
    · rename_i s₁ T₁ hk
      rw [List.append_cons] at hd hl
      have hdi : ¬ DirectMapped (p ++ [i]) := fun hh => hd (hh.of_prefix (List.prefix_append _ rest))
      obtain ⟨u, rfl, h₁, hg, hw₁, _⟩ := h.nextTable EntryOk.table hlp hw hdi hk
      exact ih h₁ hd hl (hg.satp ▸ hw₁) hT

lemma not_directMapped_tables (hva : Outside va) : ¬ DirectMapped ([] ++ [getVpn3 va, getVpn2 va, getVpn1 va]) := by
  intro hh
  exact hva (path_eq_tables va ▸ hh.of_prefix (List.prefix_append _ _))

lemma translate_dereferenced (h : Tree S L (EntryOk K) s) (hva : Outside va) (hT : T ∈ dereferenced s va) {x : ℕ}
    (hx : x < 4096) : translate s (T + x) = some (physical (T + x)) := by
  rw [dereferenced, h.root] at hT
  obtain ⟨q, u, hq, hw, rfl⟩ := mem_tablesOn h (not_directMapped_tables hva) (by simp) walk_nil hT
  exact translate_table h hq hw hx

lemma translate_mapPageTables (h : Tree S L (EntryOk K) s) (hva : Outside va) {s' : State α}
    (hT : (s', T) ∈ mapPageTables S.kallocFrame s va) {x : ℕ} (hx : x < 4096) :
    translate s' (T + x) = some (physical (T + x)) := by
  rw [mapPageTables, h.root] at hT
  obtain ⟨h', q, u, hq, hw, rfl⟩ := mem_tablesMade h (not_directMapped_tables hva) (by simp) walk_nil hT
  exact translate_table h' hq hw hx

end Dereferenced

/-- The direct map survives every sequence of `map_page` calls, and so do the addresses at which the
code reaches the page tables. -/
theorem directMap_invariant (S : FrameSource α) (s₀ : State α) (hgood : S.Good s₀.mem s₀.frames)
    (hzero : ∀ t, S.Free s₀.mem s₀.frames t → Zero s₀.mem (4096 * t) 4096) (calls : List MapCall)
    (hcalls : ∀ c ∈ calls, Outside c.virtualPage ∧ c.flag < 2 ^ 10) :
    (2 + 3 * calls.length ≤ S.left s₀.mem s₀.frames → (setup S.kallocFrame s₀ calls).isSome) ∧
    ∀ s, setup S.kallocFrame s₀ calls = some s →
      (∀ p < 2 ^ 32, translate s (virtualOffset + p) = some p) ∧
      ∀ va, Outside va →
        (∀ T ∈ dereferenced s va, ∀ x < 4096, translate s (T + x) = some (physical (T + x))) ∧
        ∀ a ∈ mapPageTables S.kallocFrame s va, ∀ x < 4096, translate a.1 (a.2 + x) = some (physical (a.2 + x)) := by
  have hp : ∀ c ∈ calls, c.Permitted NoLeaf := fun c hc => ⟨(hcalls c hc).1, (hcalls c hc).2, False.elim⟩
  refine ⟨Walked.setup_isSome hgood hzero hp, fun s hs => ?_⟩
  have h := (Walked.setup hgood hzero hp hs).tree
  refine ⟨fun p hp => translate_direct h hp, fun va hva => ⟨fun T hT x hx => ?_, fun a ha x hx => ?_⟩⟩
  · exact translate_dereferenced h hva hT hx
  · exact translate_mapPageTables h hva ha hx

theorem directMap_invariant_heap_page :
    ∃ s, setup (kallocFrame (reserved megabyteImage)) (cleared megabyteImage fun _ => 0)
        [⟨virtualOffset + 2 ^ 32, 0x80300000, 15⟩, ⟨0x1000, 0x80200000, 31⟩] = some s ∧
      translate s 0xFFFF800080200000 = some 0x80200000 := by
  have ho : Outside (virtualOffset + 2 ^ 32) := outside_iff.mpr (by decide)
  have ho' : Outside 0x1000 := outside_iff.mpr (by decide)
  obtain ⟨hsome, hmap⟩ := directMap_invariant (source megabyteImage megabyteImage_room)
    (cleared megabyteImage fun _ => 0) (cleared_good _ _ _) (cleared_zero _ _ fun _ => rfl)
    [⟨virtualOffset + 2 ^ 32, 0x80300000, 15⟩, ⟨0x1000, 0x80200000, 31⟩] (by
      intro c hc
      simp only [List.mem_cons, List.not_mem_nil, or_false] at hc
      rcases hc with rfl | rfl
      · exact ⟨ho, by decide⟩
      · exact ⟨ho', by decide⟩)
  have hleft := cleared_left megabyteImage megabyteImage_room fun _ => 0
  rw [megabyteImage_reserved] at hleft
  obtain ⟨s, hs⟩ := Option.isSome_iff_exists.mp (hsome (by rw [hleft]; decide))
  exact ⟨s, hs, (hmap s hs).1 0x80200000 (by decide)⟩

section Walker

def Agrees (s : State α) (va : ℕ) : Prop :=
  getPhysicalAddressOfVirtualAddress s va = (translate s va).getD 0 ∧
    (getPhysicalAddressOfVirtualAddress s va = 0 ↔ translate s va = none)

/-- Read as two levels of page tables, the memory from the gigabyte of `p` on leads to the frame of `p`. -/
def LeadsBack (m : Memory) (p : ℕ) : Prop :=
  ((slot m (p / 2 ^ 30 * 2 ^ 18) (getVpn1 p)).bind fun t => slot m t (getVpn0 p)) = some (p / 4096)

variable {S : FrameSource α} {L K : List (Fin 512) → Prop} {calls : List MapCall} {s : State α} {va p : ℕ}

lemma exists_direct (hc : Canonical va) (hva : ¬ Outside va) : ∃ p < 2 ^ 32, va = virtualOffset + p := by
  rw [outside_iff, not_not, getVpn3_val, getVpn2_val] at hva
  refine ⟨va - virtualOffset, ?_⟩
  simp only [virtualOffset]
  rcases hc with hc | ⟨hc, hc'⟩ <;> omega

lemma not_outside_direct (hp : p < 2 ^ 32) : ¬ Outside (virtualOffset + p) := by
  rw [outside_iff, not_not, getVpn3_val, getVpn2_val]
  simp only [virtualOffset]
  omega

lemma walk_direct (h : Tree S L (EntryOk K) s) (hp : p < 2 ^ 32) :
    walk (slot s.mem) s.satp (path (virtualOffset + p)) =
      (slot s.mem (p / 2 ^ 30 * 2 ^ 18) (getVpn1 p)).bind fun t => slot s.mem t (getVpn0 p) := by
  obtain ⟨t, hw, hdirect⟩ := h.direct
  have hv₃ : getVpn3 (virtualOffset + p) = 256 := by
    apply Fin.ext
    rw [getVpn3_val]
    simp only [virtualOffset]
    change _ = 256
    omega
  have hv₂ : (getVpn2 (virtualOffset + p)).val = p / 2 ^ 30 := by
    rw [getVpn2_val]
    simp only [virtualOffset]
    omega
  have hv₁ : getVpn1 (virtualOffset + p) = getVpn1 p := by
    apply Fin.ext
    rw [getVpn1_val, getVpn1_val]
    simp only [virtualOffset]
    omega
  have hv₀ : getVpn0 (virtualOffset + p) = getVpn0 p := by
    apply Fin.ext
    rw [getVpn0_val, getVpn0_val]
    simp only [virtualOffset]
    omega
  have hleaf : slot s.mem t (getVpn2 (virtualOffset + p)) = some (p / 2 ^ 30 * 2 ^ 18) := by
    rw [slot, hdirect _ (by omega), hv₂, target, if_pos (by omega)]
    exact congrArg some (by omega)
  have hpath : path (virtualOffset + p) = [256] ++ [getVpn2 (virtualOffset + p), getVpn1 p, getVpn0 p] := by
    rw [path, hv₃, hv₁, hv₀]
    rfl
  rw [hpath, walk_append, hw, Option.bind_some, walk_cons, hleaf, Option.bind_some, walk_cons]
  simp only [walk_cons, walk_nil, Option.bind_fun_some]

lemma agrees_direct_iff (h : Tree S L (EntryOk K) s) (hp : p < 2 ^ 32) :
    Agrees s (virtualOffset + p) ↔ p ≠ 0 ∧ LeadsBack s.mem p := by
  have hr : s.satp < 2 ^ 52 := h.lt_of_node node_nil walk_nil
  have hoff : (virtualOffset + p) % 4096 = p % 4096 := by
    simp only [virtualOffset]
    omega
  rw [Agrees, translate_direct h hp, Option.getD_some, getPhysicalAddress_eq_walk hr h.root, walk_direct h hp, hoff,
    LeadsBack]
  cases (slot s.mem (p / 2 ^ 30 * 2 ^ 18) (getVpn1 p)).bind fun t => slot s.mem t (getVpn0 p) with
  | none =>
    simp only [Option.elim_none, reduceCtorEq, iff_false, not_true_eq_false, and_false]
  | some n =>
    simp only [Option.elim_some, Option.some.injEq, reduceCtorEq, iff_false]
    omega

lemma not_agrees_of_slot_eq_none (h : Tree S L (EntryOk K) s) (hp : p < 2 ^ 32)
    (hslot : slot s.mem (p / 2 ^ 30 * 2 ^ 18) (getVpn1 p) = none) :
    getPhysicalAddressOfVirtualAddress s (virtualOffset + p) = 0 ∧ ¬ Agrees s (virtualOffset + p) := by
  have hr : s.satp < 2 ^ 52 := h.lt_of_node node_nil walk_nil
  constructor
  · rw [getPhysicalAddress_eq_walk hr h.root, walk_direct h hp, hslot]
    rfl
  · rw [agrees_direct_iff h hp, LeadsBack, hslot, Option.bind_none]
    rintro ⟨_, hh⟩
    cases hh

lemma Walked.agrees_outside_iff {K : List (Fin 512) → Prop} (h : Walked S K calls s) (hc : Canonical va)
    (hva : Outside va) (hK : K (path va)) :
    Agrees s va ↔ ∀ f, lastFrame calls va = some f → f / 4096 % 2 ^ 40 = 0 → va % 4096 ≠ 0 := by
  have hr : s.satp < 2 ^ 52 := h.tree.lt_of_node node_nil walk_nil
  rw [Agrees, getPhysicalAddress_eq_walk hr h.tree.root, translate_eq_walk h.tree hva hc hK, h.map va hva]
  cases lastFrame calls va with
  | none => simp
  | some f =>
    simp only [Option.map_some, Option.elim_some, Option.getD_some, Option.some.injEq, reduceCtorEq, iff_false,
      true_and, forall_eq']
    omega

end Walker

/-- Outside the direct map the walker of the source follows the processor, but for pages mapped to frame zero. In
the direct map it goes on where the processor stops. -/
theorem walker_agrees_iff (S : FrameSource α) (s₀ : State α) (hgood : S.Good s₀.mem s₀.frames)
    (hzero : ∀ t, S.Free s₀.mem s₀.frames t → Zero s₀.mem (4096 * t) 4096) (calls : List MapCall)
    (hcalls : ∀ c ∈ calls, Outside c.virtualPage ∧ (c.flag = 0xF ∨ c.flag = 0x1F)) (s : State α)
    (hs : setup S.kallocFrame s₀ calls = some s) (va : ℕ) (hc : Canonical va) :
    Agrees s va ↔
      (Outside va ∧ ∀ f, lastFrame calls va = some f → f / 4096 % 2 ^ 40 = 0 → va % 4096 ≠ 0) ∨
      ∃ p < 2 ^ 32, va = virtualOffset + p ∧ p ≠ 0 ∧ LeadsBack s.mem p := by
  have hp : ∀ c ∈ calls, c.Permitted (fun _ => True) := by
    intro c hc
    obtain ⟨ho, hf⟩ := hcalls c hc
    refine ⟨ho, ?_, fun _ => ?_⟩
    · rcases hf with hf | hf <;> rw [hf] <;> decide
    · rcases hf with hf | hf <;> rw [hf] <;> decide
  have h := Walked.setup hgood hzero hp hs
  by_cases hva : Outside va
  · rw [h.agrees_outside_iff hc hva trivial]
    refine ⟨fun hf => Or.inl ⟨hva, hf⟩, ?_⟩
    rintro (⟨_, hf⟩ | ⟨p, hp, rfl, _⟩)
    · exact hf
    · exact absurd hva (not_outside_direct hp)
  · obtain ⟨p, hp, rfl⟩ := exists_direct hc hva
    rw [agrees_direct_iff h.tree hp]
    refine ⟨fun hh => Or.inr ⟨p, hp, rfl, hh⟩, ?_⟩
    rintro (⟨ho, _⟩ | ⟨q, _, heq, hh⟩)
    · exact absurd ho hva
    · obtain rfl : p = q := Nat.add_left_cancel heq
      exact hh

theorem walker_agrees_iff_unmapped :
    ∃ s, setup (kallocFrame (reserved megabyteImage)) (cleared megabyteImage fun _ => 0)
        [⟨0x1000, 0x80200000, 31⟩] = some s ∧ Agrees s 0x1234 ∧ Agrees s 0x2000 := by
  have ho : Outside 0x1000 := outside_iff.mpr (by decide)
  have hcalls : ∀ c ∈ ([⟨0x1000, 0x80200000, 31⟩] : List MapCall),
      Outside c.virtualPage ∧ (c.flag = 0xF ∨ c.flag = 0x1F) := by
    intro c hc
    rw [List.mem_singleton.mp hc]
    exact ⟨ho, Or.inr rfl⟩
  have hleft := cleared_left megabyteImage megabyteImage_room fun _ => 0
  rw [megabyteImage_reserved] at hleft
  have hp : ∀ c ∈ ([⟨0x1000, 0x80200000, 31⟩] : List MapCall), c.Permitted NoLeaf := by
    intro c hc
    rw [List.mem_singleton.mp hc]
    exact ⟨ho, by decide, False.elim⟩
  have hsome := Walked.setup_isSome (cleared_good megabyteImage megabyteImage_room fun _ => 0)
    (cleared_zero _ _ fun _ => rfl) hp (by rw [hleft]; decide)
  obtain ⟨s, hs⟩ := Option.isSome_iff_exists.mp hsome
  have hiff := walker_agrees_iff (source megabyteImage megabyteImage_room) (cleared megabyteImage fun _ => 0)
    (cleared_good _ _ _) (cleared_zero _ _ fun _ => rfl) _ hcalls s hs
  refine ⟨s, hs, ?_, ?_⟩
  · exact (hiff 0x1234 (by decide)).mpr (Or.inl ⟨outside_iff.mpr (by decide), fun _ _ _ => by decide⟩)
  · refine (hiff 0x2000 (by decide)).mpr (Or.inl ⟨outside_iff.mpr (by decide), fun f hf => ?_⟩)
    have hnone : lastFrame [⟨0x1000, 0x80200000, 31⟩] 0x2000 = none := by decide
    rw [hnone] at hf
    cases hf

/-- The first byte of memory, seen at its address in the direct map: the processor finds it, the walker returns
zero. -/
theorem walker_not_agrees_direct :
    ∃ s, setup (kallocFrame (reserved megabyteImage)) (cleared megabyteImage fun _ => 0) [] = some s ∧
      translate s 0xFFFF800080000000 = some 0x80000000 ∧
      getPhysicalAddressOfVirtualAddress s 0xFFFF800080000000 = 0 ∧ ¬ Agrees s 0xFFFF800080000000 := by
  have hgood := cleared_good megabyteImage megabyteImage_room fun _ => 0
  have hzero := cleared_zero megabyteImage megabyteImage_room (m := fun _ => 0) fun _ => rfl
  have hleft := cleared_left megabyteImage megabyteImage_room fun _ => 0
  rw [megabyteImage_reserved] at hleft
  obtain ⟨s, hs⟩ := pagingInit_isSome hgood (by rw [hleft]; decide)
  have h := (Walked.pagingInit (K := NoLeaf) hgood hzero hs).1.tree
  have hmem : ∀ x, x < 0x80100000 → s.mem x = 0 := by
    intro x hx
    have hstart : megabyteImage.physicalHeapStart = 0x80100000 := rfl
    rw [pagingInit_mem hgood hzero hs]
    · simp only [cleared, physicalAllocatorInit, clearFlags_apply, ite_self]
    · rintro ⟨i, hi, rfl⟩
      rw [megabyteImage_reserved] at hi
      rw [physical_flag (by decide) (by omega), alignedStart, hstart] at hx
      omega
    · rintro ⟨i, hi, hf, _⟩
      rw [frame_eq (by decide), alignedStart, hstart] at hf
      omega
  have hslot : slot s.mem (0x80000000 / 2 ^ 30 * 2 ^ 18) (getVpn1 0x80000000) = none := by
    have he : entry s.mem (0x80000000 / 2 ^ 30 * 2 ^ 18) (getVpn1 0x80000000) = 0 :=
      entry_zero fun x _ hx => hmem x (by omega)
    rw [slot, he]
    rfl
  have haddr : 0xFFFF800080000000 = virtualOffset + 0x80000000 := rfl
  obtain ⟨hzero, hnot⟩ := not_agrees_of_slot_eq_none h (by decide) hslot
  rw [← haddr] at hzero hnot
  refine ⟨s, ?_, ?_, hzero, hnot⟩
  · exact Option.bind_eq_some_iff.mpr ⟨s, hs, rfl⟩
  · rw [haddr]
    exact translate_direct h (by decide)

end TetraOS.Memory
