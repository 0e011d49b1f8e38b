import TetraOS.Console.NegativeNumbers
import TetraOS.Libc.Blocks

/-! The buffer of the library's `vprintf` (tlibc/printf.c), a block of 200 bytes that `init_printf` takes from `malloc`.
The format and the strings are outside of it. -/

namespace TetraOS.Libc

open Library.ByteMemory Console

structure Output where
  mem : Memory
  curr : ℕ
  stored : List ℕ

/-- `buffer[curr] = c` and the step to the next place, with a record of the address. -/
def putMemory (buffer : ℕ) (out : Output) (c : UInt8) : Option Output :=
  let address := (buffer + out.curr) % 2 ^ 64
  some ⟨Function.update out.mem address c, out.curr + 1, out.stored ++ [address]⟩

def InBuffer (buffer : ℕ) (m : Memory) (fmt : List UInt8) (args : List Arg) : Prop :=
  ∃ rest out, vprintf (putMemory buffer) fmt args ⟨m, 0, []⟩ = some (rest, out) ∧
    ∀ a ∈ out.stored, buffer ≤ a ∧ a < buffer + 200

def intWidth (i : ℤ) : ℕ := if i < 0 then 1 else (digits 10 i.toNat).length

inductive Width : List UInt8 → List Arg → ℕ → Prop
  | nil (args : List Arg) : Width [] args 0
  | percent (args : List Arg) : Width [char '%'] args 0
  | plain {fmt args n} (c : UInt8) : c ≠ char '%' → Width fmt args n → Width (c :: fmt) args (1 + n)
  | int {fmt args n} (d : UInt8) (i : ℤ) : d = char 'd' ∨ d = char 'i' → i < 2 ^ 31 → Width fmt args n →
      Width (char '%' :: d :: fmt) (.int i :: args) (intWidth i + n)
  | hex {fmt args n} (i : ℕ) : i < 2 ^ 64 → Width fmt args n →
      Width (char '%' :: char 'x' :: fmt) (.uint64 i :: args) ((digits 16 i).length + n)
  | string {fmt args n} (chars : ℕ → Option UInt8) (text : List UInt8) :
      (∀ i (hi : i < text.length), chars i = some text[i]) → (∀ c ∈ text, c ≠ 0) → chars text.length = some 0 →
      Width fmt args n → Width (char '%' :: char 's' :: fmt) (.pointer chars :: args) (text.length + n)
  | character {fmt args n} (i : ℤ) : Width fmt args n →
      Width (char '%' :: char 'c' :: fmt) (.int i :: args) (1 + n)
  | other {fmt args n} (d : UInt8) : d ∉ [char 'd', char 'i', char 'x', char 's', char 'c'] →
      Width (d :: fmt) args n → Width (char '%' :: d :: fmt) args n

/-- Whatever becomes of them, these bytes are put out. -/
def Puts (fmt : List UInt8) (args : List Arg) (bytes : List UInt8) (rest : List Arg) : Prop :=
  ∀ (σ : Type) (emit : σ → UInt8 → Option σ) (out : σ),
    vprintf emit fmt args out = (emitAll emit bytes out).map fun out => (rest, out)

def Overflows (fmt : List UInt8) (args : List Arg) : Prop :=
  ∀ (σ : Type) (emit : σ → UInt8 → Option σ) (out : σ), vprintf emit fmt args out = none

def Outcome (fmt : List UInt8) (args : List Arg) (n : ℕ) : Prop :=
  (∃ bytes rest, bytes.length = n ∧ Puts fmt args bytes rest) ∨ (2 ^ 31 ≤ n ∧ Overflows fmt args)

section Widths

variable {fmt fmt' : List UInt8} {args args' : List Arg} {n : ℕ}

lemma emitAll_singleton {σ : Type} (emit : σ → UInt8 → Option σ) (c : UInt8) (out : σ) :
    emitAll emit [c] out = emit out c := by
  rw [emitAll_cons]
  exact Option.bind_fun_some _

lemma Outcome.prepend (h : Outcome fmt args n) (bytes : List UInt8)
    (hfirst : ∀ (σ : Type) (emit : σ → UInt8 → Option σ) (out : σ),
      vprintf emit fmt' args' out = (emitAll emit bytes out).bind (vprintf emit fmt args)) :
    Outcome fmt' args' (bytes.length + n) := by
  rcases h with ⟨more, rest, hlen, hputs⟩ | ⟨hn, hnone⟩
  · refine Or.inl ⟨bytes ++ more, rest, by rw [List.length_append, hlen], fun σ emit out => ?_⟩
    rw [hfirst, emitAll_append, Option.map_bind]
    exact Option.bind_congr fun out _ => hputs σ emit out
  · refine Or.inr ⟨by omega, fun σ emit out => ?_⟩
    rw [hfirst, Option.bind_eq_none_iff]
    exact fun out _ => hnone σ emit out

lemma vprintf_other {σ : Type} (emit : σ → UInt8 → Option σ) {d : UInt8}
    (hd : d ∉ [char 'd', char 'i', char 'x', char 's', char 'c']) (out : σ) :
    vprintf emit (char '%' :: d :: fmt) args out = vprintf emit (d :: fmt) args out := by
  simp only [List.mem_cons, List.not_mem_nil, or_false, not_or] at hd
  obtain ⟨hd, hi, hx, hs, hc⟩ := hd
  rw [vprintf, if_neg (not_not.mpr rfl), if_neg (by simp [hd, hi]), if_neg hx, if_neg hs, if_neg hc]

lemma Width.outcome (h : Width fmt args n) : Outcome fmt args n := by
  induction h with
  | nil args => exact Or.inl ⟨[], args, rfl, fun σ emit out => by rw [vprintf]; rfl⟩
  | percent args => exact Or.inl ⟨[], args, rfl, fun σ emit out => by rw [vprintf, if_pos rfl]; rfl⟩
  | @plain fmt args n c hc _ ih =>
    refine ih.prepend [c] fun σ emit out => ?_
    rw [emitAll_singleton, vprintf_plain emit fmt args out hc]
  | @int fmt args n d i hd hi _ ih =>
    by_cases hneg : i < 0
    · rw [intWidth, if_pos hneg]
      refine ih.prepend [toChar (i + 48)] fun σ emit out => ?_
      rw [emitAll_singleton, vprintf_of_neg hneg hd]
    · rw [intWidth, if_neg hneg, ← List.length_map digitChar]
      refine ih.prepend _ fun σ emit out => ?_
      obtain ⟨k, rfl⟩ := Int.eq_ofNat_of_zero_le (by omega : 0 ≤ i)
      rw [vprintf_int emit fmt args out hd, printInt_eq emit (by omega)]
      rfl
  | @hex fmt args n i hi _ ih =>
    rw [← List.length_map digitChar]
    refine ih.prepend _ fun σ emit out => ?_
    rw [vprintf_hex, printHex_eq emit hi]
  | @string fmt args n chars text hchars hnonzero hend _ ih =>
    by_cases hlen : text.length ≤ intMax
    · refine ih.prepend text fun σ emit out => ?_
      rw [vprintf_string, printString_eq emit hlen (fun i hi => by rw [Nat.zero_add]; exact hchars i hi) hnonzero
        (by rw [Nat.zero_add]; exact hend)]
    · rw [intMax] at hlen
      refine Or.inr ⟨by omega, fun σ emit out => ?_⟩
      rw [vprintf_string, printString_eq_none emit (fun i hi => ?_), Option.bind_none]
      rw [intMax] at hi
      rw [Nat.zero_add, hchars i (by omega), Ne, Option.some.injEq]
      exact hnonzero _ (List.getElem_mem _)
  | @character fmt args n i _ ih =>
    refine ih.prepend [toChar i] fun σ emit out => ?_
    rw [emitAll_singleton, vprintf_char]
  | @other fmt args n d hd _ ih =>
    rw [← Nat.zero_add n]
    refine ih.prepend [] fun σ emit out => ?_
    rw [emitAll_nil, Option.bind_some, vprintf_other emit hd]

end Widths

section Stores

variable (buffer : ℕ)

def places (curr n : ℕ) : List ℕ := (List.range n).map fun i => (buffer + (curr + i)) % 2 ^ 64

lemma places_succ (curr n : ℕ) :
    places buffer curr (n + 1) = (buffer + curr) % 2 ^ 64 :: places buffer (curr + 1) n := by
  rw [places, List.range_succ_eq_map, List.map_cons, List.map_map, places]
  congr 1
  refine List.map_congr_left fun i _ => ?_
  rw [Function.comp_apply, Nat.succ_eq_add_one, Nat.add_right_comm, Nat.add_assoc]

lemma emitAll_putMemory (bytes : List UInt8) (out : Output) : ∃ mem,
    emitAll (putMemory buffer) bytes out =
      some ⟨mem, out.curr + bytes.length, out.stored ++ places buffer out.curr bytes.length⟩ ∧
    (∀ x, x ∉ places buffer out.curr bytes.length → mem x = out.mem x) ∧
    (buffer + out.curr + bytes.length ≤ 2 ^ 64 →
      ∀ i (hi : i < bytes.length), mem (buffer + out.curr + i) = bytes[i]) := by
  induction bytes generalizing out with
  | nil =>
    refine ⟨out.mem, ?_, fun _ _ => rfl, fun _ i hi => absurd hi (Nat.not_lt_zero i)⟩
    rw [emitAll_nil, List.length_nil, places, List.range_zero, List.map_nil, List.append_nil]
    rfl
  | cons c bytes ih =>
    obtain ⟨mem, hemit, hother, hbytes⟩ := ih ⟨Function.update out.mem ((buffer + out.curr) % 2 ^ 64) c, out.curr + 1,
      out.stored ++ [(buffer + out.curr) % 2 ^ 64]⟩
    dsimp only at hemit hother hbytes
    have hcurr : out.curr + 1 + bytes.length = out.curr + (c :: bytes).length := by
      rw [List.length_cons]
      omega
    have hplaces : places buffer out.curr (c :: bytes).length =
      (buffer + out.curr) % 2 ^ 64 :: places buffer (out.curr + 1) bytes.length := places_succ buffer _ _
    rw [hplaces]
    refine ⟨mem, ?_, fun x hx => ?_, fun hroom i hi => ?_⟩
    · rw [emitAll_cons, putMemory, Option.bind_some, hemit, List.append_assoc, List.singleton_append, hcurr]
    · rw [List.mem_cons, not_or] at hx
      rw [hother x hx.2, Function.update_of_ne hx.1]
    · rw [List.length_cons] at hroom hi
      cases i with
      | zero =>
        have hmod : (buffer + out.curr) % 2 ^ 64 = buffer + out.curr := Nat.mod_eq_of_lt (by omega)
        rw [Nat.add_zero, hother, hmod, Function.update_self]
        · rfl
        · intro hmem
          obtain ⟨j, hj, heq⟩ := List.mem_map.mp hmem
          have hlt := List.mem_range.mp hj
          rw [Nat.mod_eq_of_lt (by omega)] at heq
          omega
      | succ i =>
        rw [← Nat.add_assoc, Nat.add_right_comm (buffer + out.curr), Nat.add_assoc buffer]
        exact hbytes (by omega) i (by omega)

lemma inBuffer_iff_length {m : Memory} {fmt : List UInt8} {args rest : List Arg} {bytes : List UInt8}
    (hbuffer : buffer + 200 ≤ 2 ^ 64) (h : Puts fmt args bytes rest) :
    InBuffer buffer m fmt args ↔ bytes.length ≤ 200 := by
  obtain ⟨mem, hemit, _⟩ := emitAll_putMemory buffer bytes ⟨m, 0, []⟩
  have hrun := h Output (putMemory buffer) ⟨m, 0, []⟩
  rw [hemit, Option.map_some] at hrun
  dsimp only at hrun
  rw [List.nil_append, Nat.zero_add] at hrun
  constructor
  · rintro ⟨_, out, hout, hall⟩
    rw [hrun] at hout
    obtain ⟨_, rfl⟩ := Prod.mk.inj (Option.some.inj hout)
    by_contra hlong
    have hmem : (buffer + (0 + 200)) % 2 ^ 64 ∈ places buffer 0 bytes.length :=
      List.mem_map_of_mem (List.mem_range.mpr (by omega))
    have hplace := hall _ hmem
    omega
  · intro hlen
    refine ⟨rest, _, hrun, fun a ha => ?_⟩
    obtain ⟨i, hi, rfl⟩ := List.mem_map.mp ha
    have hlt := List.mem_range.mp hi
    rw [Nat.mod_eq_of_lt (by omega)]
    omega

lemma runs_emitAll {heapStart : ℕ} {h : Heap} {blocks : List Block} (hblock : (buffer, 200) ∈ blocks)
    (hbuffer : buffer + 200 ≤ 2 ^ 64) (bytes : List UInt8) (out : Output)
    (hrun : Runs heapStart { h with mem := out.mem } blocks) (hlen : out.curr + bytes.length ≤ 200) :
    ∃ out', emitAll (putMemory buffer) bytes out = some out' ∧ Runs heapStart { h with mem := out'.mem } blocks := by
  induction bytes generalizing out with
  | nil => exact ⟨out, rfl, hrun⟩
  | cons c bytes ih =>
    rw [List.length_cons] at hlen
    have hplace : (buffer + out.curr) % 2 ^ 64 = buffer + out.curr := Nat.mod_eq_of_lt (by omega)
    have hstep := hrun.write hblock (x := (buffer + out.curr) % 2 ^ 64) (v := c) (by dsimp only; omega)
      (by dsimp only; omega)
    obtain ⟨out', hemit, hrun'⟩ := ih ⟨Function.update out.mem ((buffer + out.curr) % 2 ^ 64) c, out.curr + 1,
      out.stored ++ [(buffer + out.curr) % 2 ^ 64]⟩ hstep (by dsimp only; omega)
    exact ⟨out', by rw [emitAll_cons, putMemory, Option.bind_some, hemit], hrun'⟩

end Stores

/-- For every format, with the arguments it asks for: the stores are to the buffer exactly if there are at most 200
characters. Then the call is, for the heap, no more than writes of a caller into its own block. -/
theorem inBuffer_iff_width (fmt : List UInt8) (args : List Arg) (n : ℕ) (hwidth : Width fmt args n) (buffer : ℕ)
    (hbuffer : buffer + 200 ≤ 2 ^ 64) :
    (∀ m, InBuffer buffer m fmt args ↔ n ≤ 200) ∧
    (n ≤ 200 → ∀ heapStart h blocks, Runs heapStart h blocks → (buffer, 200) ∈ blocks → ∃ rest out,
      vprintf (putMemory buffer) fmt args ⟨h.mem, 0, []⟩ = some (rest, out) ∧
      Runs heapStart { h with mem := out.mem } blocks) := by
  rcases hwidth.outcome with ⟨bytes, rest, rfl, hputs⟩ | ⟨hn, hnone⟩
  · refine ⟨fun m => inBuffer_iff_length buffer hbuffer hputs, fun hlen heapStart h blocks hrun hblock => ?_⟩
    obtain ⟨out, hemit, hrun'⟩ := runs_emitAll buffer hblock hbuffer bytes ⟨h.mem, 0, []⟩ hrun (by dsimp only; omega)
    refine ⟨rest, out, ?_, hrun'⟩
    rw [hputs, hemit, Option.map_some]
  · refine ⟨fun m => ⟨?_, fun hlen => absurd hlen (by omega)⟩, fun hlen => absurd hlen (by omega)⟩
    rintro ⟨_, _, hout, _⟩
    rw [hnone] at hout
    cases hout

section Examples

variable {text : List UInt8} (h : ∀ c ∈ text, c ≠ char '%') (args : List Arg)
include h

lemma width_plain : Width text args text.length := by
  induction text with
  | nil => exact .nil args
  | cons c text ih =>
    rw [List.length_cons, Nat.add_comm]
    exact .plain c (h c List.mem_cons_self) (ih fun d hd => h d (List.mem_cons_of_mem c hd))

lemma puts_plain : Puts text args text args := by
  intro σ emit out
  induction text generalizing out with
  | nil => rw [vprintf]; rfl
  | cons c text ih =>
    rw [vprintf_plain emit text args out (h c List.mem_cons_self), emitAll_cons, Option.map_bind]
    exact Option.bind_congr fun out _ => ih (fun d hd => h d (List.mem_cons_of_mem c hd)) out

lemma vprintf_text (buffer : ℕ) (m : Memory) : ∃ out,
    vprintf (putMemory buffer) text args ⟨m, 0, []⟩ = some (args, out) ∧
    (buffer + text.length ≤ 2 ^ 64 → ∀ i (hi : i < text.length), out.mem (buffer + i) = text[i]) := by
  obtain ⟨mem, hemit, _, hbytes⟩ := emitAll_putMemory buffer text ⟨m, 0, []⟩
  have hout := puts_plain h args Output (putMemory buffer) ⟨m, 0, []⟩
  rw [hemit, Option.map_some] at hout
  exact ⟨_, hout, hbytes⟩

omit h

lemma initPrintf : ∃ h, Runs 0x12000 h [(0x12020, 200)] ∧ h.firstItem = 0x12020 + 200 ∧
    FreeItem.size h.mem h.firstItem = 0xDEADBE07 := by
  obtain ⟨h, hk⟩ := malloc_first 0x12000 (fun _ => 0) 0 200
  obtain ⟨item, hitem, _, hfirst, _⟩ := malloc_cases hk
  rw [Filled.findItem (Filled.init 0x12000 _) (by decide) 0, Option.some.injEq] at hitem
  subst hitem
  exact ⟨h, (Runs.init _).malloc (by decide) hk, hfirst, malloc_size hk⟩

lemma replicate_plain (k : ℕ) : ∀ c ∈ List.replicate k (char 'a'), c ≠ char '%' := by
  intro c hc
  rw [List.eq_of_mem_replicate hc]
  decide

theorem inBuffer_iff_width_full : ∃ h rest out, Runs 0x12000 h [(0x12020, 200)] ∧
    InBuffer 0x12020 h.mem (List.replicate 200 (char 'a')) [] ∧
    vprintf (putMemory 0x12020) (List.replicate 200 (char 'a')) [] ⟨h.mem, 0, []⟩ = some (rest, out) ∧
    Runs 0x12000 { h with mem := out.mem } [(0x12020, 200)] := by
  obtain ⟨h, hrun, _⟩ := initPrintf
  have hlen : (List.replicate 200 (char 'a')).length ≤ 200 := by rw [List.length_replicate]
  obtain ⟨hiff, hruns⟩ := inBuffer_iff_width _ [] _ (width_plain (replicate_plain 200) []) 0x12020 (by decide)
  obtain ⟨rest, out, hout, hrun'⟩ := hruns hlen _ h _ hrun (List.mem_singleton_self _)
  exact ⟨h, rest, out, hrun, (hiff _).mpr hlen, hout, hrun'⟩

/-- One character more lands in the size of the free item. -/
theorem not_inBuffer_long : ∃ h out, Runs 0x12000 h [(0x12020, 200)] ∧
    Width (List.replicate 201 (char 'a')) [] 201 ∧
    vprintf (putMemory 0x12020) (List.replicate 201 (char 'a')) [] ⟨h.mem, 0, []⟩ = some ([], out) ∧
    FreeItem.size out.mem h.firstItem ≠ FreeItem.size h.mem h.firstItem ∧
    ¬ InBuffer 0x12020 h.mem (List.replicate 201 (char 'a')) [] := by
  obtain ⟨h, hrun, hfirst, hsize⟩ := initPrintf
  have hlen : (List.replicate 201 (char 'a')).length = 201 := List.length_replicate
  have hwidth := width_plain (replicate_plain 201) []
  rw [hlen] at hwidth
  obtain ⟨out, hout, hbytes⟩ := vprintf_text (replicate_plain 201) [] 0x12020 h.mem
  have hbyte : out.mem (0x12020 + 200) = char 'a' := by
    rw [hbytes (by rw [hlen]; decide) 200 (by rw [hlen]; decide), List.getElem_replicate]
  refine ⟨h, out, hrun, hwidth, hout, fun heq => ?_, fun hin => ?_⟩
  · rw [hsize, hfirst, FreeItem.size, load, hbyte] at heq
    have hlow : (char 'a').toNat = 97 := by decide
    omega
  · have hshort := (inBuffer_iff_length 0x12020 (by decide) (puts_plain (replicate_plain 201) [])).mp hin
    omega

end Examples

end TetraOS.Libc
