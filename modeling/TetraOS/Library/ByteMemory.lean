import Mathlib.Tactic

/-! Byte-addressed memories and little-endian words of any width, and such memories behind a translation by pages. -/

namespace TetraOS.Library.ByteMemory

abbrev Memory := ℕ → UInt8

def load (m : Memory) : ℕ → ℕ → ℕ
  | 0, _ => 0
  | n + 1, a => (m a).toNat + 256 * load m n (a + 1)

def store (m : Memory) (n a v : ℕ) : Memory :=
  fun x => if a ≤ x ∧ x < a + n then UInt8.ofNat (v / 256 ^ (x - a)) else m x

def Zero (m : Memory) (a n : ℕ) : Prop := ∀ x, a ≤ x → x < a + n → m x = 0

lemma store_outside {m : Memory} {n a v x : ℕ} (h : x < a ∨ a + n ≤ x) : store m n a v x = m x := by
  rw [store, if_neg (by omega)]

lemma store_congr {m m' : Memory} {n a v x : ℕ} (h : x < a ∨ a + n ≤ x → m' x = m x) :
    store m' n a v x = store m n a v x := by
  rw [store, store]
  split
  · rfl
  · exact h (by omega)

lemma store_one (m : Memory) (a v : ℕ) : store m 1 a v = Function.update m a (UInt8.ofNat v) := by
  funext x
  rw [store, Function.update_apply]
  by_cases hx : x = a
  · rw [if_pos (by omega), if_pos hx, hx, Nat.sub_self, pow_zero, Nat.div_one]
  · rw [if_neg (by omega), if_neg hx]

lemma store_succ (m : Memory) (n a v : ℕ) :
    store m (n + 1) a v = store (Function.update m a (UInt8.ofNat v)) n (a + 1) (v / 256) := by
  funext x
  rw [store, store, Function.update_apply]
  by_cases hxa : x = a
  · rw [if_pos (by omega), if_neg (by omega), if_pos hxa, hxa, Nat.sub_self, pow_zero, Nat.div_one]
  · rw [if_neg hxa]
    by_cases hr : a + 1 ≤ x ∧ x < a + 1 + n
    · rw [if_pos (by omega), if_pos hr, show x - a = x - (a + 1) + 1 by omega, pow_succ', Nat.div_div_eq_div_mul]
    · rw [if_neg (by omega), if_neg hr]

lemma load_one (m : Memory) (a : ℕ) : load m 1 a = (m a).toNat := by rw [load, load, Nat.mul_zero, Nat.add_zero]

lemma load_congr {m m' : Memory} {n a : ℕ} (h : ∀ x, a ≤ x → x < a + n → m' x = m x) :
    load m' n a = load m n a := by
  induction n generalizing a with
  | zero => rfl
  | succ n ih =>
    rw [load, load, h a (le_refl a) (by omega), ih (fun x hx hx' => h x (by omega) (by omega))]

lemma load_shift {m m' : Memory} {n a b : ℕ} (h : ∀ i < n, m' (b + i) = m (a + i)) : load m' n b = load m n a := by
  induction n generalizing a b with
  | zero => rfl
  | succ n ih =>
    have hrest : load m' n (b + 1) = load m n (a + 1) := by
      apply ih
      intro i hi
      have := h (i + 1) (by omega)
      rwa [← Nat.add_assoc, ← Nat.add_assoc, Nat.add_right_comm b, Nat.add_right_comm a] at this
    have hfirst : m' b = m a := h 0 (by omega)
    rw [load, load, hfirst, hrest]

lemma load_lt (m : Memory) (n a : ℕ) : load m n a < 256 ^ n := by
  induction n generalizing a with
  | zero => simp [load]
  | succ n ih =>
    have hb : (m a).toNat < 256 := (m a).toNat_lt
    have hh := ih (a + 1)
    rw [load, pow_succ]
    omega

lemma load_store (m : Memory) (n a v : ℕ) : load (store m n a v) n a = v % 256 ^ n := by
  induction n generalizing a v m with
  | zero => simp [load, Nat.mod_one]
  | succ n ih =>
    have hfirst : (store m (n + 1) a v a).toNat = v % 256 := by simp [store]
    have hrest : load (store m (n + 1) a v) n (a + 1) = load (store m n (a + 1) (v / 256)) n (a + 1) := by
      apply load_congr
      intro x hx hx'
      have hd : x - a = x - (a + 1) + 1 := by omega
      rw [store, store, if_pos (by omega), if_pos (by omega), hd, pow_succ', Nat.div_div_eq_div_mul]
    rw [load, hfirst, hrest, ih, pow_succ', Nat.mod_mul]

lemma load_store_of_lt {m : Memory} {n a v : ℕ} (h : v < 256 ^ n) : load (store m n a v) n a = v := by
  rw [load_store, Nat.mod_eq_of_lt h]

lemma load_store_disjoint {m : Memory} {n a v k b : ℕ} (h : b + k ≤ a ∨ a + n ≤ b) :
    load (store m n a v) k b = load m k b :=
  load_congr fun _ _ _ => store_outside (by omega)

lemma Zero.load {m : Memory} {a n k b : ℕ} (h : Zero m a n) (hb : a ≤ b) (hk : b + k ≤ a + n) :
    load m k b = 0 := by
  induction k generalizing b with
  | zero => rfl
  | succ k ih =>
    rw [ByteMemory.load, h b hb (by omega), ih (by omega) (by omega)]
    rfl

section Paged

variable (frame : ℕ → ℕ)

def paged (a : ℕ) : ℕ := frame (a / 4096) * 4096 + a % 4096

def view (m : Memory) : Memory := fun a => m (paged frame a)

def storePaged (m : Memory) : ℕ → ℕ → ℕ → Memory
  | 0, _, _ => m
  | n + 1, a, v => storePaged (Function.update m (paged frame a) (UInt8.ofNat v)) n (a + 1) (v / 256)

variable {frame} {m : Memory} {n k a b v x : ℕ}

lemma paged_mod : paged frame a % 4096 = a % 4096 := by
  rw [paged]
  omega

lemma paged_ne (h : a % 4096 ≠ b % 4096) : paged frame a ≠ paged frame b := by
  intro heq
  have hmod : paged frame a % 4096 = paged frame b % 4096 := by rw [heq]
  rw [paged_mod, paged_mod] at hmod
  exact h hmod

lemma paged_add (h : a % 4096 + n < 4096) : paged frame (a + n) = paged frame a + n := by
  rw [paged, paged, show (a + n) / 4096 = a / 4096 by omega, show (a + n) % 4096 = a % 4096 + n by omega, Nat.add_assoc]

lemma storePaged_of_ne (h : ∀ i < n, x ≠ paged frame (a + i)) : storePaged frame m n a v x = m x := by
  induction n generalizing m a v with
  | zero => rfl
  | succ n ih =>
    have hfirst : x ≠ paged frame a := h 0 (Nat.succ_pos n)
    rw [storePaged, ih, Function.update_of_ne hfirst]
    intro i hi
    rw [Nat.add_assoc, Nat.add_comm 1 i]
    exact h (i + 1) (Nat.succ_lt_succ hi)

lemma view_storePaged_of_ne (h : ∀ i < n, x % 4096 ≠ (a + i) % 4096) :
    view frame (storePaged frame m n a v) x = view frame m x :=
  storePaged_of_ne fun i hi => paged_ne (h i hi)

lemma view_storePaged {i : ℕ} (hn : n ≤ 4096) (hi : i < n) :
    view frame (storePaged frame m n a v) (a + i) = UInt8.ofNat (v / 256 ^ i) := by
  induction n generalizing m a v i with
  | zero => exact absurd hi (Nat.not_lt_zero i)
  | succ n ih =>
    rw [storePaged]
    cases i with
    | zero =>
      rw [view_storePaged_of_ne (fun i hi => by omega), Nat.add_zero, pow_zero, Nat.div_one]
      exact Function.update_self _ _ m
    | succ i =>
      rw [show a + (i + 1) = a + 1 + i by omega, ih (by omega) (by omega), pow_succ', Nat.div_div_eq_div_mul]

lemma load_storePaged (hn : n ≤ 4096) : load (view frame (storePaged frame m n a v)) n a = v % 256 ^ n := by
  rw [← load_store (view frame m) n a v]
  apply load_congr
  intro x hx hx'
  obtain ⟨i, rfl⟩ := Nat.exists_eq_add_of_le hx
  rw [view_storePaged hn (by omega), store, if_pos ⟨hx, hx'⟩, Nat.add_sub_cancel_left]

lemma load_storePaged_disjoint (h : ∀ i < k, ∀ j < n, (b + i) % 4096 ≠ (a + j) % 4096) :
    load (view frame (storePaged frame m n a v)) k b = load (view frame m) k b := by
  apply load_congr
  intro x hx hx'
  obtain ⟨i, rfl⟩ := Nat.exists_eq_add_of_le hx
  exact view_storePaged_of_ne (h i (by omega))

lemma load_paged (h : ∀ i < n, paged frame (a + i) = paged frame a + i) :
    load m n (paged frame a) = load (view frame m) n a :=
  load_shift fun i hi => by rw [view, h i hi]

end Paged

end TetraOS.Library.ByteMemory
