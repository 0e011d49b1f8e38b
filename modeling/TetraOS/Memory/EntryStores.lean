import TetraOS.Memory.DirectMap

/-! The single stores of `map_page`: which table each of them goes to, and what it does to the translation. -/

namespace TetraOS.Memory

open Library.ByteMemory Library.TableTree VirtualPage PageTable

variable {α : Type}

/-- An entry that `map_page` stores on its way to the page of `address`, `depth` tables below the root. -/
structure EntryStore (α : Type) where
  address : ℕ
  depth : ℕ
  table : ℕ
  before : State α
  after : State α

section Stores

variable (k : FrameAlloc α) (va leaf : ℕ)

def newTableStores (depth : ℕ) (s : State α) (table : ℕ) (index : Fin 512) : List (EntryStore α) :=
  if isEntryValid s.mem table index then [] else
  (s.kallocFrame k).elim [] fun (frame, s) => [⟨va, depth, table, s,
    { s with mem := setEntry s.mem table index (createValidPageTableEntry (PhysicalFrame.getPpn frame)) }⟩]

def storesOn : List (Fin 512) → ℕ → State α → ℕ → List (EntryStore α)
  | [], depth, s, table => [⟨va, depth, table, s, { s with mem := setEntry s.mem table (getVpn0 va) leaf }⟩]
  | i :: rest, depth, s, table => newTableStores k va depth s table i ++
    (nextTable k s table i).elim [] fun (s, table) => storesOn rest (depth + 1) s table

end Stores

def mapPageStores (k : FrameAlloc α) (s : State α) (virtualPage physicalFrame flag : ℕ) : List (EntryStore α) :=
  storesOn k virtualPage (createValidPageTableEntry (PhysicalFrame.getPpn physicalFrame) ||| flag)
    [getVpn3 virtualPage, getVpn2 virtualPage, getVpn1 virtualPage] 0 s s.firstLevelTable

def pointer (e : ℕ) : Option ℕ :=
  if faulting e || readable e || executable e then none else some (e / 1024 % 2 ^ 44)

/-- The page table that the processor consults for an address, `depth` tables below the root. -/
def pageTable (s : State α) (va : ℕ) : ℕ → Option ℕ
  | 0 => some s.satp
  | depth + 1 => (pageTable s va depth).bind fun t => pointer (entry s.mem t (index va (3 - depth)))

def EntryStore.OnTable (st : EntryStore α) : Prop :=
  ∃ t, pageTable st.before st.address st.depth = some t ∧ st.table = tableAddress t

def EntryStore.KeepsKernelHalf (st : EntryStore α) : Prop :=
  ∀ x, virtualOffset ≤ x → translate st.after x = translate st.before x

section PageTable

variable {S : FrameSource α} {L K : List (Fin 512) → Prop} {s s' : State α} {va : ℕ}

lemma pointer_eq_target {e : ℕ} (h : e % 2 = 1 → e % 1024 = 1 ∧ e / 1024 < 2 ^ 44) : pointer e = target e := by
  rw [pointer, target]
  by_cases hv : e % 2 = 1
  · obtain ⟨hp, hn⟩ := h hv
    have hf : (faulting e || readable e || executable e) = false := by
      simp only [faulting, writable, readable, executable, Bool.or_eq_false_iff, decide_eq_false_iff_not,
        Bool.and_eq_false_iff, Bool.not_eq_false', decide_eq_true_eq]
      omega
    rw [hf, if_neg Bool.false_ne_true, if_pos hv, Nat.mod_eq_of_lt hn, Nat.mod_eq_of_lt (by omega)]
  · have hf : (faulting e || readable e || executable e) = true := by
      simp only [faulting, Bool.or_eq_true, decide_eq_true_eq]
      omega
    rw [hf, if_pos rfl, if_neg hv]

lemma take_succ_path {depth : ℕ} (hd : depth < 4) :
    (path va).take (depth + 1) = (path va).take depth ++ [index va (3 - depth)] := by
  interval_cases depth <;> rfl

lemma pageTable_eq_walk (h : Tree S L (EntryOk K) s) (hva : Outside va) {depth : ℕ} (hd : depth < 4) :
    pageTable s va depth = walk (slot s.mem) s.satp ((path va).take depth) := by
  induction depth with
  | zero => rfl
  | succ depth ih =>
    have hpre : (path va).take (depth + 1) <+: path va := List.take_prefix _ _
    rw [pageTable, ih (by omega), take_succ_path (by omega), walk_concat]
    cases hw : walk (slot s.mem) s.satp ((path va).take depth) with
    | none => rfl
    | some t =>
      rw [take_succ_path (by omega)] at hpre
      have hdm : ¬ DirectMapped ((path va).take depth ++ [index va (3 - depth)]) := fun hh => hva (hh.of_prefix hpre)
      have hlen : ((path va).take depth).length = depth := by
        rw [List.length_take]
        exact min_eq_left (by simp [path]; omega)
      have hn : Node ((path va).take depth) := Node.of_concat hdm (by omega)
      rw [Option.bind_some, Option.bind_some, slot]
      apply pointer_eq_target
      intro hv
      have hok := h.entries _ t _ hn hw hdm hv
      exact ⟨hok.pointer (by rw [List.length_append, hlen, List.length_singleton]; omega), hok.ppn⟩

lemma pageTable_direct (h : Tree S L (EntryOk K) s) (hva : ¬ Outside va) : pageTable s va 2 = none := by
  obtain ⟨t, hw, hdirect⟩ := h.direct
  rw [outside_iff, not_not] at hva
  have hi₃ : index va (3 - 0) = 256 := Fin.ext hva.1
  have hroot := h.entries [] s.satp 256 node_nil walk_nil node_direct.2
  have hptr : pointer (entry s.mem s.satp 256) = some t := by
    rw [pointer_eq_target fun hv => ⟨(hroot hv).pointer (by simp), (hroot hv).ppn⟩]
    rw [walk_cons] at hw
    simp only [walk_nil, Option.bind_fun_some] at hw
    exact hw
  have hleaf : pointer (entry s.mem t (index va (3 - 1))) = none := by
    have hi₂ : index va (3 - 1) = getVpn2 va := rfl
    have hr : readable (entry s.mem t (index va (3 - 1))) = true := by
      rw [hi₂, hdirect _ hva.2, readable, decide_eq_true_iff]
      omega
    rw [pointer, hr, Bool.or_true, Bool.true_or, if_pos rfl]
  rw [pageTable, pageTable, pageTable, Option.bind_some, hi₃, hptr, Option.bind_some, hleaf]

end PageTable

structure Stored (S : FrameSource α) (L K : List (Fin 512) → Prop) (va n : ℕ) (st : EntryStore α) : Prop where
  address : st.address = va
  depth : st.depth < 4
  before : Tree S L (EntryOk K) st.before
  after : Tree S L (EntryOk K) st.after
  satp : st.after.satp = st.before.satp
  fresh : Fresh S L st.before n
  table : ∃ t, walk (slot st.before.mem) st.before.satp ((path va).take st.depth) = some t ∧ st.table = tableAddress t
  other : ∀ x, Outside x → path x ≠ path va ∨ st.depth < 3 →
    walk (slot st.after.mem) st.before.satp (path x) = walk (slot st.before.mem) st.before.satp (path x)

section Stored

variable {S : FrameSource α} {L K : List (Fin 512) → Prop} {s s' : State α} {va n e t : ℕ} {p : List (Fin 512)}
    {i : Fin 512} {st : EntryStore α} (h : Tree S L (EntryOk K) s) (hfresh : Fresh S L s n) (hva : Outside va)
include h hfresh hva

lemma leaf_stored (he : e < 2 ^ 64) (hv : e % 2 = 1) (hn : e / 1024 % 2 ^ 52 = n) (hok : EntryOk K (path va) e)
    (hw : walk (slot s.mem) s.satp [getVpn3 va, getVpn2 va, getVpn1 va] = some t) :
    Stored S L K va n ⟨va, 3, tableAddress t, s, { s with mem := setEntry s.mem (tableAddress t) (getVpn0 va) e }⟩ := by
  have hd : ¬ DirectMapped ([getVpn3 va, getVpn2 va, getVpn1 va] ++ [getVpn0 va]) := hva
  have hnode : Node [getVpn3 va, getVpn2 va, getVpn1 va] := Node.of_concat hd (by simp)
  rw [setEntry_tableAddress (h.lt_of_node hnode hw)]
  have htree := h.setEntry hnode hw he hv hn hd (fun _ => hfresh) (by simp) hok rfl
  refine ⟨rfl, by simp, h, htree, rfl, hfresh, ⟨t, hw, rfl⟩, fun x hx hne => ?_⟩
  have hlink := Tree.linked hnode hw (i := getVpn0 va) he hv hn
  have hpath : path va ≠ path x := (hne.resolve_right (lt_irrefl 3)).symm
  exact hlink.walk_of_not_prefix h.node_inj (inside_path hx) (not_prefix_path hpath)

lemma newTable_stored (hpre : p ++ [i] <+: path va) (hp : p.length < 3) (hw : walk (slot s.mem) s.satp p = some t)
    (hst : st ∈ newTableStores S.kallocFrame va p.length s (tableAddress t) i) : Stored S L K va n st := by
  have hd : ¬ DirectMapped (p ++ [i]) := fun hh => hva (hh.of_prefix hpre)
  have hnode : Node p := Node.of_concat hd (by omega)
  have ht := h.lt_of_node hnode hw
  rw [newTableStores, isEntryValid_tableAddress ht] at hst
  by_cases hvalid : entry s.mem t i % 2 = 1
  · rw [decide_eq_true hvalid, if_pos rfl] at hst
    cases hst
  rw [decide_eq_false hvalid, if_neg Bool.false_ne_true] at hst
  cases hk : s.kallocFrame S.kallocFrame with
  | none =>
    rw [hk] at hst
    cases hst
  | some r =>
    obtain ⟨f, s₁⟩ := r
    rw [hk] at hst
    obtain rfl := List.mem_singleton.mp hst
    obtain ⟨k, rfl, _, hfresh₁, h₁, hg, hwalk, _⟩ := h.kallocFrame hk
    have hlow := hfresh₁.low
    have hw₁ : walk (slot s₁.mem) s₁.satp p = some t := by rw [hg.satp, hwalk p hnode.inside, hw]
    have hnone : slot s₁.mem t i = none := by
      have hh := hwalk (p ++ [i]) (inside_of_length (by simp; omega) hd)
      rw [walk_concat, walk_concat, hw, hwalk p hnode.inside, hw, Option.bind_some, Option.bind_some] at hh
      rw [hh, slot, target, if_neg hvalid]
    have hentry : createValidPageTableEntry (PhysicalFrame.getPpn (4096 * k)) = k * 1024 + 1 := by
      rw [PhysicalFrame.getPpn_eq, createValidPageTableEntry_eq]
      omega
    rw [hentry, setEntry_tableAddress ht]
    obtain ⟨htree, _, hother⟩ := h₁.linkTable hnode hw₁ hd hnone (EntryOk.table (K := K) _ k (by simp; omega) hlow)
      hfresh₁ rfl
    refine ⟨rfl, by dsimp only; omega, h₁, htree, rfl, hfresh.grows hg, ⟨t, ?_, rfl⟩, fun x hx _ => ?_⟩
    · obtain ⟨more, hmore⟩ := hpre
      rw [← hmore, List.append_assoc, List.take_left]
      exact hw₁
    · refine hother (path x) (inside_path hx) fun hh => ?_
      have hlen := congrArg List.length hh
      simp only [path, List.length_cons, List.length_nil, List.length_append] at hlen
      omega

lemma storesOn_stored (he : e < 2 ^ 64) (hv : e % 2 = 1) (hn : e / 1024 % 2 ^ 52 = n) (hok : EntryOk K (path va) e)
    {rest : List (Fin 512)} (hp : p ++ rest = [getVpn3 va, getVpn2 va, getVpn1 va])
    (hw : walk (slot s.mem) s.satp p = some t)
    (hst : st ∈ storesOn S.kallocFrame va e rest p.length s (tableAddress t)) : Stored S L K va n st := by
  induction rest generalizing p t s with
  | nil =>
    rw [List.append_nil] at hp
    subst hp
    obtain rfl := List.mem_singleton.mp hst
    exact leaf_stored h hfresh hva he hv hn hok hw
  | cons i rest ih =>
    have hlen := congrArg List.length hp
    simp only [List.length_append, List.length_cons, List.length_nil] at hlen
    have hpre : p ++ [i] <+: path va := by
      refine ⟨rest ++ [getVpn0 va], ?_⟩
      rw [path_eq_concat, ← hp]
      simp
    have hd : ¬ DirectMapped (p ++ [i]) := fun hh => hva (hh.of_prefix hpre)
    rcases List.mem_append.mp hst with hst | hst
    · exact newTable_stored h hfresh hva hpre (by omega) hw hst
    · cases hk : nextTable S.kallocFrame s (tableAddress t) i with
      | none =>
        rw [hk] at hst
        cases hst
      | some r =>
        obtain ⟨s₁, T₁⟩ := r
        rw [hk] at hst
        obtain ⟨u, rfl, h₁, hg, hw₁, _⟩ := h.nextTable EntryOk.table (by omega) hw hd hk
        have hdepth : p.length + 1 = (p ++ [i]).length := by rw [List.length_append, List.length_singleton]
        change st ∈ storesOn S.kallocFrame va e rest (p.length + 1) s₁ (tableAddress u) at hst
        rw [hdepth] at hst
        refine ih h₁ (hfresh.grows hg) ?_ (hg.satp ▸ hw₁) hst
        rw [List.append_assoc]
        exact hp

end Stored

def LowHalf (va : ℕ) : Prop := va / 2 ^ 47 % 2 = 0

instance : DecidablePred LowHalf := fun _ => inferInstanceAs (Decidable (_ = _))

section Halves

variable {S : FrameSource α} {L K : List (Fin 512) → Prop} {s s' : State α} {va x n : ℕ} {st : EntryStore α}

lemma LowHalf.outside (h : LowHalf va) : Outside va := by
  rw [LowHalf] at h
  rw [outside_iff, getVpn3_val, getVpn2_val]
  omega

lemma LowHalf.path_ne (h : LowHalf va) (hx : virtualOffset ≤ x) (hx' : x < 2 ^ 64) : path x ≠ path va := by
  rw [LowHalf] at h
  simp only [virtualOffset] at hx
  rw [Ne, VirtualPage.path_eq_iff, pageOf, pageOf]
  omega

lemma translate_upper_congr (h : Tree S L (EntryOk K) s) (h' : Tree S L (EntryOk K) s') (hK : ∀ q, K q)
    (hx : virtualOffset ≤ x)
    (hw : Outside x → x < 2 ^ 64 → walk (slot s'.mem) s'.satp (path x) = walk (slot s.mem) s.satp (path x)) :
    translate s' x = translate s x := by
  by_cases hc : Canonical x
  · have hlt : x < 2 ^ 64 := by
      rcases hc with hc | hc
      · exact hc.trans (by norm_num)
      · exact hc.2
    by_cases ho : Outside x
    · rw [translate_eq_walk h' ho hc (hK _), translate_eq_walk h ho hc (hK _), hw ho hlt]
    · obtain ⟨p, hp, rfl⟩ := exists_direct hc ho
      rw [translate_direct h' hp, translate_direct h hp]
  · rw [translate, translate, if_neg hc, if_neg hc]

lemma Stored.onTable (hst : Stored S L K va n st) (hva : Outside va) : st.OnTable := by
  obtain ⟨t, hw, ht⟩ := hst.table
  refine ⟨t, ?_, ht⟩
  rw [hst.address, pageTable_eq_walk hst.before hva hst.depth, hw]

lemma Stored.keepsKernelHalf (hst : Stored S L K va n st) (hK : ∀ q, K q) (hva : LowHalf va) : st.KeepsKernelHalf := by
  intro x hx
  refine translate_upper_congr hst.before hst.after hK hx fun ho hlt => ?_
  rw [hst.satp]
  exact hst.other x ho (Or.inl (hva.path_ne hx hlt))

lemma Stored.keepsKernelHalf_of_depth (hst : Stored S L K va n st) (hK : ∀ q, K q) (hd : st.depth < 3) :
    st.KeepsKernelHalf := by
  intro x hx
  refine translate_upper_congr hst.before hst.after hK hx fun ho _ => ?_
  rw [hst.satp]
  exact hst.other x ho (Or.inr hd)

end Halves

section MapPage

variable {S : FrameSource α} {L K : List (Fin 512) → Prop} {s s' : State α} {va n flag : ℕ}

lemma mapPageStores_stored (h : Tree S L (EntryOk K) s) (hfresh : Fresh S L s n) (hva : Outside va)
    (hflag : flag < 2 ^ 10) (hK : K (path va) → readable (1 ||| flag) = true) :
    ∀ st ∈ mapPageStores S.kallocFrame s va (4096 * n) flag, Stored S L K va n st := by
  intro st hst
  have hlow := hfresh.low
  have hor : 1 ||| flag < 2 ^ 10 := Nat.or_lt_two_pow (by decide) hflag
  have hodd : (1 ||| flag) % 2 = 1 := Nat.or_mod_two_eq_one.mpr (Or.inl rfl)
  rw [mapPageStores, leafEntry_low hlow hflag, h.root] at hst
  exact storesOn_stored (p := []) h hfresh hva (by omega) (by omega) (by omega) (EntryOk.newLeaf hlow hflag hK) rfl
    walk_nil hst

lemma mem_storesOn_cons {k : FrameAlloc α} {e depth T T₁ : ℕ} {i : Fin 512} {rest : List (Fin 512)} {s₁ : State α}
    {st : EntryStore α} (hk : nextTable k s T i = some (s₁, T₁)) (hst : st ∈ storesOn k va e rest (depth + 1) s₁ T₁) :
    st ∈ storesOn k va e (i :: rest) depth s T := by
  rw [storesOn, hk]
  exact List.mem_append_right _ hst

lemma leaf_mem_mapPageStores {k : FrameAlloc α} {f : ℕ} (hm : mapPage k s va f flag = some s') {s₁ s₂ s₃ : State α}
    {T₁ T₂ T₃ : ℕ} (h₁ : nextTable k s s.firstLevelTable (getVpn3 va) = some (s₁, T₁))
    (h₂ : nextTable k s₁ T₁ (getVpn2 va) = some (s₂, T₂)) (h₃ : nextTable k s₂ T₂ (getVpn1 va) = some (s₃, T₃)) :
    ⟨va, 3, T₃, s₃, s'⟩ ∈ mapPageStores k s va f flag := by
  simp only [mapPage, h₁, h₂, h₃, Option.bind_eq_bind, Option.bind_some, Option.some.injEq] at hm
  subst hm
  exact mem_storesOn_cons h₁ (mem_storesOn_cons h₂ (mem_storesOn_cons h₃ List.mem_cons_self))

lemma newTableStores_depth {k : FrameAlloc α} {depth T : ℕ} {i : Fin 512} {st : EntryStore α}
    (hst : st ∈ newTableStores k va depth s T i) : st.depth = depth := by
  rw [newTableStores] at hst
  split at hst
  · cases hst
  · cases hk : s.kallocFrame k with
    | none =>
      rw [hk] at hst
      cases hst
    | some r =>
      rw [hk] at hst
      rw [List.mem_singleton.mp hst]

lemma mem_storesOn_cases {k : FrameAlloc α} {e depth T : ℕ} {i : Fin 512} {rest : List (Fin 512)} {st : EntryStore α}
    (hst : st ∈ storesOn k va e (i :: rest) depth s T) : st.depth = depth ∨
      ∃ s₁ T₁, nextTable k s T i = some (s₁, T₁) ∧ st ∈ storesOn k va e rest (depth + 1) s₁ T₁ := by
  rcases List.mem_append.mp hst with hst | hst
  · exact Or.inl (newTableStores_depth hst)
  · cases hk : nextTable k s T i with
    | none =>
      rw [hk] at hst
      cases hst
    | some r =>
      rw [hk] at hst
      exact Or.inr ⟨r.1, r.2, rfl, hst⟩

lemma depth_lt_of_eq_none {k : FrameAlloc α} {f : ℕ} (hm : mapPage k s va f flag = none) {st : EntryStore α}
    (hst : st ∈ mapPageStores k s va f flag) : st.depth < 3 := by
  rcases mem_storesOn_cases hst with hd | ⟨s₁, T₁, h₁, hst⟩
  · omega
  rcases mem_storesOn_cases hst with hd | ⟨s₂, T₂, h₂, hst⟩
  · omega
  rcases mem_storesOn_cases hst with hd | ⟨s₃, T₃, h₃, _⟩
  · omega
  simp only [mapPage, h₁, h₂, h₃, Option.bind_eq_bind, Option.bind_some] at hm
  cases hm

lemma nextTable_direct (h : Tree S L (EntryOk K) s) (hva : ¬ Outside va) (k : FrameAlloc α) : ∃ T₁ T₂,
    nextTable k s s.firstLevelTable (getVpn3 va) = some (s, T₁) ∧ nextTable k s T₁ (getVpn2 va) = some (s, T₂) ∧
      isEntryValid s.mem s.firstLevelTable (getVpn3 va) = true ∧ isEntryValid s.mem T₁ (getVpn2 va) = true := by
  obtain ⟨t, hw, hdirect⟩ := h.direct
  obtain ⟨hv₃, hv₂⟩ := not_not.mp fun hh => hva (outside_iff.mpr hh)
  have hv₃' : getVpn3 va = 256 := Fin.ext hv₃
  have hroot := h.lt_of_node node_nil walk_nil
  have ht := h.lt_of_node node_direct hw
  rw [walk_cons] at hw
  simp only [walk_nil, Option.bind_fun_some] at hw
  have hvalid₁ : isEntryValid s.mem s.firstLevelTable (getVpn3 va) = true := by
    rw [h.root, isEntryValid_tableAddress hroot, hv₃', decide_eq_true_iff]
    exact (slot_eq_some hw).1
  have hT₁ : tableAt s.mem s.firstLevelTable (getVpn3 va) = tableAddress t := by
    rw [h.root, tableAt_tableAddress hroot, hv₃', ← (slot_eq_some hw).2]
  have hvalid₂ : isEntryValid s.mem (tableAddress t) (getVpn2 va) = true := by
    rw [isEntryValid_tableAddress ht, hdirect _ hv₂, decide_eq_true_iff]
    omega
  refine ⟨tableAddress t, tableAt s.mem (tableAddress t) (getVpn2 va), ?_, ?_, hvalid₁, hvalid₂⟩
  · rw [nextTable, if_pos hvalid₁, Option.map_some, hT₁]
  · rw [nextTable, if_pos hvalid₂, Option.map_some]

lemma exists_not_onTable (h : Tree S L (EntryOk K) s) (hva : ¬ Outside va) {f : ℕ}
    (hm : mapPage S.kallocFrame s va f flag = some s') :
    ∃ st ∈ mapPageStores S.kallocFrame s va f flag, ¬ st.OnTable := by
  obtain ⟨T₁, T₂, h₁, h₂, _⟩ := nextTable_direct h hva S.kallocFrame
  obtain ⟨⟨s₃, T₃⟩, h₃⟩ : ∃ r, nextTable S.kallocFrame s T₂ (getVpn1 va) = some r := by
    cases h₃ : nextTable S.kallocFrame s T₂ (getVpn1 va) with
    | none =>
      simp only [mapPage, h₁, h₂, h₃, Option.bind_eq_bind, Option.bind_some, Option.bind_none] at hm
      cases hm
    | some r => exact ⟨r, rfl⟩
  obtain ⟨_, ⟨_, rfl⟩ | ⟨hinvalid, f', t', hk, hs⟩⟩ := nextTable_cases h₃
  · refine ⟨_, leaf_mem_mapPageStores hm h₁ h₂ h₃, ?_⟩
    rintro ⟨u, hu, _⟩
    change pageTable s₃ va (2 + 1) = some u at hu
    rw [pageTable, pageTable_direct h hva] at hu
    cases hu
  · obtain ⟨_, _, _, _, h', _⟩ := h.kallocFrame hk
    refine ⟨⟨va, 2, T₂, t', s₃⟩, ?_, ?_⟩
    · refine mem_storesOn_cons h₁ (mem_storesOn_cons h₂ (List.mem_append_left _ ?_))
      rw [newTableStores, hinvalid, if_neg Bool.false_ne_true, hk, hs]
      exact List.mem_cons_self
    · rintro ⟨u, hu, _⟩
      change pageTable t' va 2 = some u at hu
      rw [pageTable_direct h' hva] at hu
      cases hu

lemma mapPageStores_direct_of_eq_none (h : Tree S L (EntryOk K) s) (hva : ¬ Outside va) {f : ℕ}
    (hm : mapPage S.kallocFrame s va f flag = none) : mapPageStores S.kallocFrame s va f flag = [] := by
  obtain ⟨T₁, T₂, h₁, h₂, hv₁, hv₂⟩ := nextTable_direct h hva S.kallocFrame
  have h₃ : nextTable S.kallocFrame s T₂ (getVpn1 va) = none := by
    by_contra h₃
    obtain ⟨⟨s₃, T₃⟩, h₃⟩ := Option.ne_none_iff_exists'.mp h₃
    simp only [mapPage, h₁, h₂, h₃, Option.bind_eq_bind, Option.bind_some] at hm
    cases hm
  have hnew : newTableStores S.kallocFrame va 2 s T₂ (getVpn1 va) = [] := by
    rw [nextTable, Option.map_eq_none_iff] at h₃
    rw [newTableStores]
    split
    · rfl
    · rename_i hv
      rw [if_neg hv, Option.map_eq_none_iff] at h₃
      rw [h₃, Option.elim_none]
  have hnew₁ : newTableStores S.kallocFrame va 0 s s.firstLevelTable (getVpn3 va) = [] := if_pos hv₁
  have hnew₂ : newTableStores S.kallocFrame va 1 s T₁ (getVpn2 va) = [] := if_pos hv₂
  simp only [mapPageStores, storesOn, h₁, h₂, h₃, hnew, hnew₁, hnew₂, Option.elim_some, Option.elim_none,
    List.nil_append]

lemma exists_not_keepsKernelHalf (h : Tree S L (EntryOk K) s) (hfresh : Fresh S L s n) (hva : Outside va)
    (hup : ¬ LowHalf va) (hflag : flag < 2 ^ 10) (hr : readable (1 ||| flag) = true) (hL : L (path va)) (hK : ∀ q, K q)
    (hm : mapPage S.kallocFrame s va (4096 * n) flag = some s') :
    ∃ st ∈ mapPageStores S.kallocFrame s va (4096 * n) flag, ¬ st.KeepsKernelHalf := by
  obtain ⟨s₁, s₂, s₃, T₁, T₂, T₃, e, h₁, h₂, h₃, _⟩ := mapPage_cases hm
  have hmem := leaf_mem_mapPageStores hm h₁ h₂ h₃
  have hst := mapPageStores_stored h hfresh hva hflag (fun _ => hr) _ hmem
  refine ⟨_, hmem, fun hkeeps => ?_⟩
  have hpath : path (virtualOffset + va % 2 ^ 47) = path va := by
    rw [LowHalf] at hup
    rw [VirtualPage.path_eq_iff, pageOf, pageOf]
    simp only [virtualOffset]
    omega
  have hc : Canonical (virtualOffset + va % 2 ^ 47) := by
    right
    simp only [virtualOffset]
    omega
  have hout : Outside (virtualOffset + va % 2 ^ 47) := by
    rw [Outside, hpath]
    exact hva
  have hself : walk (slot s'.mem) s'.satp (path va) = some n := by
    have hlow := hfresh.low
    have hor : 1 ||| flag < 2 ^ 10 := Nat.or_lt_two_pow (by decide) hflag
    obtain ⟨_, hmaps⟩ := h.mapPage EntryOk.table hva (leafEntry_low hlow hflag).symm (by omega) (n := n) (by omega)
      (EntryOk.newLeaf hlow hflag fun _ => hr) (fun _ => hfresh) hm
    rw [hmaps.satp]
    exact hmaps.self
  have heq := hkeeps _ (Nat.le_add_right virtualOffset (va % 2 ^ 47))
  rw [translate_eq_walk hst.after hout hc (hK _), translate_eq_walk hst.before hout hc (hK _), hpath] at heq
  change (walk (slot s'.mem) s'.satp (path va)).map _ = _ at heq
  rw [hself, Option.map_some] at heq
  obtain ⟨u, hu, hun⟩ := Option.map_eq_some_iff.mp heq.symm
  obtain rfl : u = n := by omega
  exact hst.fresh.unowned (path va) ⟨hva, Or.inr ⟨by simp [path], hL⟩⟩ hu

end MapPage

end TetraOS.Memory
