import TetraOS.Memory.PageTree

/-! Loads and stores at virtual addresses. The processor walks the tables itself, with four levels of
nine bits (Sv48); an access that finds no leaf is a page fault. Accessed and dirty bits are left out. -/

namespace TetraOS.Memory

open Library.ByteMemory Library.TableTree VirtualPage

variable {α : Type}

def Canonical (va : ℕ) : Prop := va < 2 ^ 47 ∨ 2 ^ 64 - 2 ^ 47 ≤ va ∧ va < 2 ^ 64

instance : DecidablePred Canonical := fun _ => inferInstanceAs (Decidable (_ ∨ _ ∧ _))

def readable (e : ℕ) : Bool := e / 2 % 2 = 1
def writable (e : ℕ) : Bool := e / 4 % 2 = 1
def executable (e : ℕ) : Bool := e / 8 % 2 = 1

-- Entries that are writable but not readable are reserved.
def faulting (e : ℕ) : Bool := e % 2 = 0 || writable e && !readable e

def index (va level : ℕ) : Fin 512 := ⟨va >>> (12 + 9 * level) &&& 511, and_511_lt _⟩

def leafAddress (va level ppn : ℕ) : Option ℕ :=
  if ppn % 512 ^ level = 0 then some (4096 * ppn + va % (4096 * 512 ^ level)) else none

def hardwareWalk (m : Memory) (va : ℕ) : ℕ → ℕ → Option ℕ
  | 0, t =>
    let e := entry m t (index va 0)
    if faulting e then none else
    if readable e || executable e then leafAddress va 0 (e / 1024 % 2 ^ 44) else none
  | level + 1, t =>
    let e := entry m t (index va (level + 1))
    if faulting e then none else
    if readable e || executable e then leafAddress va (level + 1) (e / 1024 % 2 ^ 44) else
    hardwareWalk m va level (e / 1024 % 2 ^ 44)

def translate (s : State α) (va : ℕ) : Option ℕ :=
  if Canonical va then hardwareWalk s.mem va 3 s.satp else none

def loadByte (s : State α) (va : ℕ) : Option UInt8 := (translate s va).map s.mem

def storeByte (s : State α) (va : ℕ) (b : UInt8) : Option (State α) :=
  (translate s va).map fun p => { s with mem := Function.update s.mem p b }

def loadBytes (s : State α) : ℕ → ℕ → Option ℕ
  | 0, _ => some 0
  | n + 1, va => do
    let b ← loadByte s va
    let rest ← loadBytes s n (va + 1)
    some (b.toNat + 256 * rest)

def storeBytes (s : State α) : ℕ → ℕ → ℕ → Option (State α)
  | 0, _, _ => some s
  | n + 1, va, v => do
    let s ← storeByte s va (UInt8.ofNat v)
    storeBytes s n (va + 1) (v / 256)

/-- Entries on which the processor and the walker of the source agree: pointers carry only the valid
bit, and the leaves for `K` are readable. -/
structure EntryOk (K : List (Fin 512) → Prop) (q : List (Fin 512)) (e : ℕ) : Prop where
  pointer : q.length < 4 → e % 1024 = 1
  ppn : e / 1024 < 2 ^ 44
  leaf : q.length = 4 → K q → readable e = true

lemma EntryOk.table {K : List (Fin 512) → Prop} (q : List (Fin 512)) (n : ℕ) (hq : q.length < 4)
    (hn : n < 2 ^ 20) : EntryOk K q (n * 1024 + 1) :=
  ⟨fun _ => by omega, by omega, fun h => absurd h (by omega)⟩

section Walk

variable {m : Memory} {va t : ℕ}

lemma index_three (va : ℕ) : index va 3 = getVpn3 va := rfl
lemma index_two (va : ℕ) : index va 2 = getVpn2 va := rfl
lemma index_one (va : ℕ) : index va 1 = getVpn1 va := rfl
lemma index_zero (va : ℕ) : index va 0 = getVpn0 va := rfl

lemma hardwareWalk_pointer {level : ℕ} (h : entry m t (index va (level + 1)) % 2 = 1 →
      entry m t (index va (level + 1)) % 1024 = 1 ∧ entry m t (index va (level + 1)) / 1024 < 2 ^ 44) :
    hardwareWalk m va (level + 1) t = (slot m t (index va (level + 1))).bind (hardwareWalk m va level) := by
  rw [hardwareWalk, slot, target]
  generalize entry m t (index va (level + 1)) = e at h
  by_cases hv : e % 2 = 1
  · obtain ⟨hp, hn⟩ := h hv
    have hf : faulting e = false := by
      simp only [faulting, writable, readable, Bool.or_eq_false_iff, decide_eq_false_iff_not, Bool.and_eq_false_iff,
        Bool.not_eq_false', decide_eq_true_eq]
      omega
    have hl : (readable e || executable e) = false := by
      simp only [readable, executable, Bool.or_eq_false_iff, decide_eq_false_iff_not]
      omega
    rw [if_pos hv, Option.bind_some]
    simp only [hf, hl, Bool.false_eq_true, if_false]
    rw [Nat.mod_eq_of_lt hn, Nat.mod_eq_of_lt (by omega)]
  · have hf : faulting e = true := by
      simp only [faulting, Bool.or_eq_true, decide_eq_true_eq]
      omega
    rw [if_neg hv, Option.bind_none]
    simp only [hf, if_true]

lemma hardwareWalk_leaf (h : entry m t (getVpn0 va) % 2 = 1 → entry m t (getVpn0 va) / 1024 < 2 ^ 44) :
    hardwareWalk m va 0 t = if faulting (entry m t (getVpn0 va)) then none else
      if readable (entry m t (getVpn0 va)) || executable (entry m t (getVpn0 va)) then
        (slot m t (getVpn0 va)).map fun n => 4096 * n + va % 4096
      else none := by
  rw [hardwareWalk, slot, target, index_zero]
  generalize entry m t (getVpn0 va) = e at h
  by_cases hf : faulting e = true
  · simp only [hf, if_true]
  · have hv : e % 2 = 1 := by
      simp only [faulting, Bool.or_eq_true, decide_eq_true_eq] at hf
      omega
    have hn := h hv
    simp only [hf, Bool.false_eq_true, if_false, if_pos hv, Option.map_some, leafAddress, pow_zero, Nat.mod_one,
      if_true, Nat.mul_one]
    rw [Nat.mod_eq_of_lt hn, Nat.mod_eq_of_lt (by omega : e / 1024 < 2 ^ 52)]

end Walk

section Translate

variable {S : FrameSource α} {L K : List (Fin 512) → Prop} {s : State α} {va : ℕ}

lemma path_eq_concat (va : ℕ) : path va = [getVpn3 va, getVpn2 va, getVpn1 va] ++ [getVpn0 va] := rfl

lemma translate_eq_bind_of_entries (hentries : ∀ p t i, Node p → walk (slot s.mem) s.satp p = some t →
      ¬ DirectMapped (p ++ [i]) → entry s.mem t i % 2 = 1 → EntryOk K (p ++ [i]) (entry s.mem t i))
    (hva : Outside va) (hc : Canonical va) :
    translate s va = (walk (slot s.mem) s.satp [getVpn3 va, getVpn2 va, getVpn1 va]).bind
      (hardwareWalk s.mem va 0) := by
  have hd : ∀ p, p <+: path va → ¬ DirectMapped p := fun p hp hh => hva (hh.of_prefix hp)
  have hstep : ∀ p t level, p ++ [index va (level + 1)] <+: path va → p.length < 3 →
      walk (slot s.mem) s.satp p = some t →
      hardwareWalk s.mem va (level + 1) t =
        (slot s.mem t (index va (level + 1))).bind (hardwareWalk s.mem va level) := by
    intro p t level hp hl hw
    apply hardwareWalk_pointer
    intro hv
    have hn : Node p := Node.of_concat (hd _ hp) (by omega)
    have hok := hentries p t _ hn hw (hd _ hp) hv
    exact ⟨hok.pointer (by simp; omega), hok.ppn⟩
  rw [translate, if_pos hc, hstep [] s.satp 2 ⟨_, rfl⟩ (by simp) walk_nil, walk_cons, index_three]
  cases h₁ : slot s.mem s.satp (getVpn3 va) with
  | none => rfl
  | some t₁ =>
    rw [Option.bind_some, Option.bind_some, hstep [getVpn3 va] t₁ 1 ⟨_, rfl⟩ (by simp) (by simp [h₁]), walk_cons,
      index_two]
    cases h₂ : slot s.mem t₁ (getVpn2 va) with
    | none => rfl
    | some t₂ =>
      rw [Option.bind_some, Option.bind_some,
        hstep [getVpn3 va, getVpn2 va] t₂ 0 ⟨_, rfl⟩ (by simp) (by simp [h₁, h₂]), walk_cons, index_one]
      cases slot s.mem t₂ (getVpn1 va) <;> rfl

variable (h : Tree S L (EntryOk K) s) (hva : Outside va)
include h hva

lemma translate_eq_bind (hc : Canonical va) :
    translate s va = (walk (slot s.mem) s.satp [getVpn3 va, getVpn2 va, getVpn1 va]).bind
      (hardwareWalk s.mem va 0) := translate_eq_bind_of_entries h.entries hva hc

lemma walk_of_translate {p : ℕ} (ht : translate s va = some p) :
    Canonical va ∧ ∃ n, walk (slot s.mem) s.satp (path va) = some n ∧ p = 4096 * n + va % 4096 := by
  have hc : Canonical va := by
    by_contra hc
    rw [translate, if_neg hc] at ht
    cases ht
  refine ⟨hc, ?_⟩
  rw [translate_eq_bind h hva hc, Option.bind_eq_some_iff] at ht
  obtain ⟨t, hw, ht⟩ := ht
  have hd : ¬ DirectMapped ([getVpn3 va, getVpn2 va, getVpn1 va] ++ [getVpn0 va]) := hva
  have hn : Node [getVpn3 va, getVpn2 va, getVpn1 va] := Node.of_concat hd (by simp)
  rw [hardwareWalk_leaf fun hv => (h.entries _ t _ hn hw hd hv).ppn] at ht
  rw [path_eq_concat, walk_concat, hw, Option.bind_some]
  split_ifs at ht
  obtain ⟨n, hs, rfl⟩ := Option.map_eq_some_iff.mp ht
  exact ⟨n, hs, rfl⟩

lemma translate_eq_walk (hc : Canonical va) (hK : K (path va)) :
    translate s va = (walk (slot s.mem) s.satp (path va)).map fun n => 4096 * n + va % 4096 := by
  rw [translate_eq_bind h hva hc, path_eq_concat, walk_concat]
  cases hw : walk (slot s.mem) s.satp [getVpn3 va, getVpn2 va, getVpn1 va] with
  | none => rfl
  | some t =>
    have hd : ¬ DirectMapped ([getVpn3 va, getVpn2 va, getVpn1 va] ++ [getVpn0 va]) := hva
    have hn : Node [getVpn3 va, getVpn2 va, getVpn1 va] := Node.of_concat hd (by simp)
    have hok := h.entries _ t (getVpn0 va) hn hw hd
    rw [Option.bind_some, Option.bind_some, hardwareWalk_leaf fun hv => (hok hv).ppn, slot, target]
    generalize entry s.mem t (getVpn0 va) = e at hok
    by_cases hv : e % 2 = 1
    · have hr : readable e = true := (hok hv).leaf (by simp) hK
      simp [faulting, hr, hv]
    · have hf : faulting e = true := by
        simp only [faulting, Bool.or_eq_true, decide_eq_true_eq]
        omega
      simp [hf, hv]

end Translate

lemma translate_direct {S : FrameSource α} {L K : List (Fin 512) → Prop} {s : State α}
    (h : Tree S L (EntryOk K) s) {p : ℕ} (hp : p < 2 ^ 32) : translate s (virtualOffset + p) = some p := by
  obtain ⟨t, hw, hdirect⟩ := h.direct
  have hc : Canonical (virtualOffset + p) := Or.inr ⟨by simp only [virtualOffset]; omega,
    by simp only [virtualOffset]; omega⟩
  have hi₃ : index (virtualOffset + p) 3 = 256 := by
    rw [index_three]
    apply Fin.ext
    rw [getVpn3_val]
    simp only [virtualOffset]
    change _ = 256
    omega
  have hi₂ : (index (virtualOffset + p) (1 + 1)).val = p / 2 ^ 30 := by
    rw [index_two, getVpn2_val]
    simp only [virtualOffset]
    omega
  have hslot : slot s.mem s.satp 256 = some t := by
    rw [walk_cons] at hw
    simpa only [walk_nil, Option.bind_fun_some] using hw
  have hroot := h.entries [] s.satp 256 node_nil walk_nil node_direct.2
  rw [translate, if_pos hc, hardwareWalk_pointer, hi₃, hslot, Option.bind_some, hardwareWalk, hdirect _ (by omega), hi₂]
  · have hlow : p / 2 ^ 30 < 4 := by omega
    have hr : readable (p / 2 ^ 30 * 2 ^ 28 + 15) = true := by
      simp only [readable, decide_eq_true_eq]
      omega
    have hf : faulting (p / 2 ^ 30 * 2 ^ 28 + 15) = false := by
      simp only [faulting, hr, Bool.not_true, Bool.and_false, Bool.or_false, decide_eq_false_iff_not]
      omega
    simp only [hf, hr, Bool.true_or, Bool.false_eq_true, if_false, if_true, leafAddress]
    rw [if_pos (by omega)]
    simp only [virtualOffset]
    exact congrArg some (by omega)
  · rw [hi₃]
    exact fun hv => ⟨(hroot hv).pointer (by simp), (hroot hv).ppn⟩

structure Usable (L K : List (Fin 512) → Prop) (va : ℕ) : Prop where
  outside : Outside va
  canonical : Canonical va
  owned : L (path va)
  leaf : K (path va)

def Mapped (s : State α) (va : ℕ) : Prop := (walk (slot s.mem) s.satp (path va)).isSome

def view (s : State α) : Memory :=
  fun va => ((walk (slot s.mem) s.satp (path va)).map fun n => s.mem (4096 * n + va % 4096)).getD 0

structure SameTables (S : FrameSource α) (s s' : State α) : Prop where
  satp : s'.satp = s.satp
  frames : s'.frames = s.frames
  freeList : s'.freeList = s.freeList
  virtualAllocEnd : s'.virtualAllocEnd = s.virtualAllocEnd
  records : ∀ x, S.Bytes s.frames x → s'.mem x = s.mem x
  walk : ∀ q, Inside Node q → walk (slot s'.mem) s.satp q = walk (slot s.mem) s.satp q

namespace SameTables

variable {S : FrameSource α} {s s' s'' : State α}

lemma refl (s : State α) : SameTables S s s := ⟨rfl, rfl, rfl, rfl, fun _ _ => rfl, fun _ _ => rfl⟩

lemma trans (h : SameTables S s s') (h' : SameTables S s' s'') : SameTables S s s'' := by
  have hwalk := h'.walk
  have hrecords := h'.records
  rw [h.satp] at hwalk
  rw [h.frames] at hrecords
  exact ⟨h'.satp.trans h.satp, h'.frames.trans h.frames, h'.freeList.trans h.freeList,
    h'.virtualAllocEnd.trans h.virtualAllocEnd, fun x hx => (hrecords x hx).trans (h.records x hx),
    fun q hq => (hwalk q hq).trans (h.walk q hq)⟩

lemma mapped (h : SameTables S s s') {va : ℕ} (hva : Outside va) : Mapped s' va ↔ Mapped s va := by
  rw [Mapped, Mapped, h.satp, h.walk _ (inside_path hva)]

lemma left (h : SameTables S s s') (hgood : S.Good s.mem s.frames) :
    S.left s'.mem s'.frames = S.left s.mem s.frames := by
  rw [h.frames, S.local_left hgood h.records]

end SameTables

lemma canonical_ext {a b : ℕ} (ha : Canonical a) (hb : Canonical b) (hp : path a = path b)
    (ho : a % 4096 = b % 4096) : a = b := by
  rw [path_eq_iff, pageOf, pageOf] at hp
  rcases ha with ha | ⟨ha, ha'⟩ <;> rcases hb with hb | ⟨hb, hb'⟩ <;> omega

section Access

variable {S : FrameSource α} {L K : List (Fin 512) → Prop} {s : State α}

lemma Usable.mem_eq {va n : ℕ} (_ : Usable L K va) (hw : walk (slot s.mem) s.satp (path va) = some n) :
    view s va = s.mem (4096 * n + va % 4096) := by
  rw [view, hw]
  rfl

lemma Usable.path_owned {va : ℕ} (hu : Usable L K va) : Owned L (path va) :=
  ⟨hu.outside, Or.inr ⟨by simp [path], hu.owned⟩⟩

variable (h : Tree S L (EntryOk K) s)
include h

lemma loadByte_eq {va : ℕ} (hu : Usable L K va) (hm : Mapped s va) : loadByte s va = some (view s va) := by
  obtain ⟨n, hw⟩ := Option.isSome_iff_exists.mp hm
  rw [loadByte, translate_eq_walk h hu.outside hu.canonical hu.leaf, hu.mem_eq hw, hw]
  rfl

lemma loadBytes_eq {n va : ℕ} (hu : ∀ x, va ≤ x → x < va + n → Usable L K x)
    (hm : ∀ x, va ≤ x → x < va + n → Mapped s x) : loadBytes s n va = some (load (view s) n va) := by
  induction n generalizing va with
  | zero => rfl
  | succ n ih =>
    rw [loadBytes, loadByte_eq h (hu va le_rfl (by omega)) (hm va le_rfl (by omega)),
      ih (fun x hx hx' => hu x (by omega) (by omega)) (fun x hx hx' => hm x (by omega) (by omega))]
    rfl

lemma storeByte_owned {va p : ℕ} {b : UInt8} (hva : Outside va) (hL : L (path va)) (ht : translate s va = some p) :
    ∃ s', storeByte s va b = some s' ∧ Tree S L (EntryOk K) s' ∧ SameTables S s s' ∧
      ∀ x, Outside x → Canonical x → L (path x) → view s' x = if x = va then b else view s x := by
  obtain ⟨hc, n, hw, rfl⟩ := walk_of_translate h hva ht
  have hown : Owned L (path va) := ⟨hva, Or.inr ⟨by simp [path], hL⟩⟩
  have hpage : ∀ x b, x / 4096 ≠ n → Function.update s.mem (4096 * n + va % 4096) b x = s.mem x := by
    intro x b hx
    rw [Function.update_of_ne]
    omega
  have hrecords : ∀ x, S.Bytes s.frames x → Function.update s.mem (4096 * n + va % 4096) b x = s.mem x :=
    fun x hx => hpage x b (h.apart _ n x hown hw hx)
  obtain ⟨htree, hwalk⟩ := h.write hrecords
    (fun q x hq hqx => hpage x b fun hx => by
      rw [hx] at hqx
      have heq := h.inj q (path va) n hq.owned hown hqx hw
      exact absurd hq.1 (by rw [heq]; simp [path]))
    (fun x hx => hpage x b fun hn => h.taken _ n hown hw (hn ▸ hx)) rfl
  refine ⟨_, by rw [storeByte, ht, Option.map_some], htree, ⟨rfl, rfl, rfl, rfl, hrecords, hwalk⟩, ?_⟩
  intro x hx hcx hLx
  have hwx := hwalk (path x) (inside_path hx)
  simp only [view] at hwx ⊢
  rw [hwx]
  cases hk : walk (slot s.mem) s.satp (path x) with
  | none =>
    rw [if_neg]
    · rfl
    · rintro rfl
      rw [hw] at hk
      cases hk
  | some k =>
    simp only [Option.map_some, Option.getD_some]
    by_cases hxva : x = va
    · subst hxva
      rw [hw, Option.some.injEq] at hk
      rw [if_pos rfl, hk, Function.update_self]
    · rw [if_neg hxva, Function.update_of_ne]
      intro heq
      have hkn : k = n := by omega
      subst hkn
      have hownx : Owned L (path x) := ⟨hx, Or.inr ⟨by simp [path], hLx⟩⟩
      exact hxva (canonical_ext hcx hc (h.inj _ _ k hownx hown hk hw) (by omega))

lemma storeByte_eq {va : ℕ} {b : UInt8} (hu : Usable L K va) (hm : Mapped s va) :
    ∃ s', storeByte s va b = some s' ∧ Tree S L (EntryOk K) s' ∧ SameTables S s s' ∧
      ∀ x, Outside x → Canonical x → L (path x) → view s' x = if x = va then b else view s x := by
  obtain ⟨n, hw⟩ := Option.isSome_iff_exists.mp hm
  have ht := translate_eq_walk h hu.outside hu.canonical hu.leaf
  rw [hw, Option.map_some] at ht
  exact storeByte_owned h hu.outside hu.owned ht

lemma storeBytes_eq {n va v : ℕ} (hu : ∀ x, va ≤ x → x < va + n → Usable L K x)
    (hm : ∀ x, va ≤ x → x < va + n → Mapped s x) :
    ∃ s', storeBytes s n va v = some s' ∧ Tree S L (EntryOk K) s' ∧ SameTables S s s' ∧
      ∀ x, Outside x → Canonical x → L (path x) → view s' x = store (view s) n va v x := by
  induction n generalizing s va v with
  | zero =>
    exact ⟨s, rfl, h, SameTables.refl s, fun x _ _ _ => (store_outside (by omega)).symm⟩
  | succ n ih =>
    obtain ⟨s₁, hs₁, h₁, hsame₁, hv₁⟩ := storeByte_eq h (b := UInt8.ofNat v) (hu va le_rfl (by omega))
      (hm va le_rfl (by omega))
    have hm₁ : ∀ x, va + 1 ≤ x → x < va + 1 + n → Mapped s₁ x := fun x hx hx' =>
      (hsame₁.mapped (hu x (by omega) (by omega)).outside).mpr (hm x (by omega) (by omega))
    obtain ⟨s₂, hs₂, h₂, hsame₂, hv₂⟩ := ih h₁ (v := v / 256) (fun x hx hx' => hu x (by omega) (by omega)) hm₁
    refine ⟨s₂, by rw [storeBytes, hs₁]; exact hs₂, h₂, hsame₁.trans hsame₂, ?_⟩
    intro x hx hc hL
    rw [hv₂ x hx hc hL, store, store, hv₁ x hx hc hL]
    by_cases hxa : x = va
    · subst hxa
      rw [if_neg (by omega), if_pos rfl, if_pos (by omega), Nat.sub_self, pow_zero, Nat.div_one]
    · rw [if_neg hxa]
      by_cases hr : va + 1 ≤ x ∧ x < va + 1 + n
      · rw [if_pos hr, if_pos (by omega), show x - va = x - (va + 1) + 1 by omega, pow_succ', Nat.div_div_eq_div_mul]
      · rw [if_neg hr, if_neg (by omega)]

end Access

structure MapsNew (S : FrameSource α) (L : List (Fin 512) → Prop) (s s' : State α) (v n : ℕ) : Prop where
  satp : s'.satp = s.satp
  freeList : s'.freeList = s.freeList
  virtualAllocEnd : s'.virtualAllocEnd = s.virtualAllocEnd
  free : S.Free s.mem s.frames n
  self : walk (slot s'.mem) s.satp (path v) = some n
  other : ∀ q, Inside Node q → ¬ q <+: path v → walk (slot s'.mem) s.satp q = walk (slot s.mem) s.satp q
  tables : ∀ q t, Node q → walk (slot s.mem) s.satp q = some t → walk (slot s'.mem) s.satp q = some t
  view_other : ∀ x, Owned L (path x) → path x ≠ path v → view s' x = view s x
  view_self : L (path v) → ∀ x, path x = path v → view s' x = 0
  left : S.left s.mem s.frames = S.left s'.mem s'.frames + 1 + missingTables s.mem s.satp v

section New

variable {S : FrameSource α} {L K : List (Fin 512) → Prop} {s s₁ s' : State α}

lemma not_prefix_path {a b : ℕ} (h : path a ≠ path b) : ¬ path a <+: path b := fun hp =>
  h (hp.eq_of_length (by simp [path]))

lemma mem_owned_eq {Ok : List (Fin 512) → ℕ → Prop} (h : Tree S L Ok s') (hsatp : s'.satp = s.satp)
    (hbytes : ∀ x, S.Bytes s'.frames x ↔ S.Bytes s.frames x)
    (hmem : ∀ x, ¬ S.Bytes s.frames x → (∀ q, Node q → walk (slot s'.mem) s.satp q ≠ some (x / 4096)) →
      s'.mem x = s.mem x)
    {va n : ℕ} (hown : Owned L (path va)) (hw : walk (slot s'.mem) s.satp (path va) = some n) {x : ℕ}
    (hx : x / 4096 = n) : s'.mem x = s.mem x := by
  rw [← hsatp] at hw
  apply hmem x
  · intro hb
    exact h.apart _ n x hown hw ((hbytes x).mpr hb) hx
  · intro q hq hqx
    rw [← hsatp, hx] at hqx
    have heq := h.inj q _ n hq.owned hown hqx hw
    exact absurd hq.1 (by rw [heq]; simp [path])

lemma view_owned_eq {Ok : List (Fin 512) → ℕ → Prop} (h : Tree S L Ok s') (hsatp : s'.satp = s.satp)
    (hbytes : ∀ x, S.Bytes s'.frames x ↔ S.Bytes s.frames x)
    (hmem : ∀ x, ¬ S.Bytes s.frames x → (∀ q, Node q → walk (slot s'.mem) s.satp q ≠ some (x / 4096)) →
      s'.mem x = s.mem x)
    {va : ℕ} (hown : Owned L (path va))
    (hw : walk (slot s'.mem) s.satp (path va) = walk (slot s.mem) s.satp (path va)) : view s' va = view s va := by
  rw [view, view, hsatp, hw]
  cases hn : walk (slot s.mem) s.satp (path va) with
  | none => rfl
  | some n =>
    rw [hn] at hw
    have hpage : (4096 * n + va % 4096) / 4096 = n := by omega
    exact mem_owned_eq h hsatp hbytes hmem hown hw hpage

lemma missingTables_congr {m m' : Memory} {r v : ℕ} (hv : Outside v)
    (hw : ∀ q, Inside Node q → walk (slot m') r q = walk (slot m) r q) :
    missingTables m' r v = missingTables m r v := by
  have hone : ∀ p, p <+: path v → p.length < 4 → missingTable m' r p = missingTable m r p := by
    intro p hp hl
    rw [missingTable, missingTable, hw p (Node.inside ⟨hl, fun hd => hv (hd.of_prefix hp)⟩)]
  rw [missingTables, missingTables, hone _ ⟨_, rfl⟩ (by simp), hone _ ⟨_, rfl⟩ (by simp), hone _ ⟨_, rfl⟩ (by simp)]

lemma leafEntry_low {n flag : ℕ} (hn : n < 2 ^ 20) (hflag : flag < 2 ^ 10) :
    createValidPageTableEntry (PhysicalFrame.getPpn (4096 * n)) ||| flag = n * 1024 + (1 ||| flag) := by
  rw [leafEntry_eq hflag, PhysicalFrame.getPpn_eq, Nat.mul_div_cancel_left n (by decide), Nat.mod_eq_of_lt (by omega)]

lemma EntryOk.newLeaf {v n flag : ℕ} (hn : n < 2 ^ 20) (hflag : flag < 2 ^ 10)
    (hK : K (path v) → readable (1 ||| flag) = true) : EntryOk K (path v) (n * 1024 + (1 ||| flag)) := by
  have hor : 1 ||| flag < 2 ^ 10 := Nat.or_lt_two_pow (by decide) hflag
  refine ⟨fun hl => absurd hl (by simp [path]), by omega, fun _ hKv => ?_⟩
  have hr := hK hKv
  simp only [readable, decide_eq_true_eq] at hr ⊢
  omega

lemma mapsNew (h : Tree S L (EntryOk K) s) {v f flag : ℕ} (hv : Outside v) (hflag : flag < 2 ^ 10)
    (hK : K (path v) → readable (1 ||| flag) = true) (hk : s.kallocFrame S.kallocFrame = some (f, s₁))
    (hm : mapPage S.kallocFrame s₁ v f flag = some s') :
    ∃ n, f = 4096 * n ∧ Tree S L (EntryOk K) s' ∧ MapsNew S L s s' v n := by
  obtain ⟨n, rfl, hfree, hfresh, h₁, hg, hw₁, hl₁⟩ := h.kallocFrame hk
  have hlow := hfresh.low
  have hor : 1 ||| flag < 2 ^ 10 := Nat.or_lt_two_pow (by decide) hflag
  obtain ⟨h', hmap⟩ := h₁.mapPage EntryOk.table hv (leafEntry_low hlow hflag).symm (by omega) (n := n) (by omega)
    (EntryOk.newLeaf hlow hflag hK) (fun _ => hfresh) hm
  have hsatp : s₁.satp = s.satp := hg.satp
  have hself := hmap.self
  have hother := hmap.other
  have htables := hmap.tables
  have hmem := hmap.mem
  rw [hsatp] at hself hother htables hmem
  have hbytes : ∀ x, S.Bytes s'.frames x ↔ S.Bytes s.frames x := fun x => (hmap.bytes x).trans (hg.bytes x)
  have htables' : ∀ q t, Node q → walk (slot s.mem) s.satp q = some t → walk (slot s'.mem) s.satp q = some t :=
    fun q t hq hh => htables q t hq (hg.tables q t hq hh)
  have hmem' : ∀ x, ¬ S.Bytes s.frames x → (∀ q, Node q → walk (slot s'.mem) s.satp q ≠ some (x / 4096)) →
      s'.mem x = s.mem x := by
    intro x hx hq
    rw [hmem x (fun hb => hx ((hg.bytes x).mp hb)) hq]
    exact hg.mem x hx fun q hn hh => hq q hn (htables q _ hn hh)
  have hother' : ∀ q, Inside Node q → ¬ q <+: path v → walk (slot s'.mem) s.satp q = walk (slot s.mem) s.satp q :=
    fun q hq hp => (hother q hq hp).trans (hw₁ q hq)
  have hsatp' : s'.satp = s.satp := hmap.satp.trans hsatp
  refine ⟨n, rfl, h', hsatp', hmap.freeList.trans hg.freeList, hmap.virtualAllocEnd.trans hg.virtualAllocEnd,
    hfree, hself, hother', htables', ?_, ?_, ?_⟩
  · intro x hx hne
    exact view_owned_eq h' hsatp' hbytes hmem' hx (hother' (path x) hx.inside (not_prefix_path hne))
  · intro hL x hxv
    have hown : Owned L (path v) := ⟨hv, Or.inr ⟨by simp [path], hL⟩⟩
    have hpage : (4096 * n + x % 4096) / 4096 = n := by omega
    have heq := mem_owned_eq h' hsatp' (fun x => (hbytes x).trans (hg.bytes x).symm) (s := { s₁ with satp := s.satp })
      hmem hown hself hpage
    rw [view, hsatp', hxv, hself]
    exact heq.trans (hfresh.zero _ (by omega) (by omega))
  · have hmiss := missingTables_congr hv hw₁
    have := hmap.left
    rw [hsatp] at this
    omega

lemma mapsNew_isSome (h : Tree S L (EntryOk K) s) {v : ℕ} (hv : Outside v) (flag : ℕ)
    (hl : 1 + missingTables s.mem s.satp v ≤ S.left s.mem s.frames) :
    ∃ f s₁ s', s.kallocFrame S.kallocFrame = some (f, s₁) ∧ mapPage S.kallocFrame s₁ v f flag = some s' := by
  obtain ⟨⟨f, s₁⟩, hk⟩ : ∃ r, s.kallocFrame S.kallocFrame = some r := by
    obtain ⟨⟨f, m, a⟩, hk⟩ := Option.isSome_iff_exists.mp (S.isSome h.good (by omega))
    exact ⟨_, by rw [State.kallocFrame, hk, Option.map_some]⟩
  obtain ⟨n, rfl, _, _, h₁, hg, hw₁, hl₁⟩ := h.kallocFrame hk
  have hmiss := missingTables_congr hv hw₁
  obtain ⟨s', hm⟩ := h₁.mapPage_isSome EntryOk.table hv (by rw [hg.satp]; omega) (4096 * n) flag
  exact ⟨_, _, s', hk, hm⟩

end New

end TetraOS.Memory
