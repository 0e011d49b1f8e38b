import Mathlib.Data.Nat.Digits.Lemmas
import Mathlib.Tactic

/-! `vprintf` of the kernel (kernel/libk/printf.cpp) and of the programs' library (tlibc/printf.c): one loop over the
format, with two ways to put out a byte. What C leaves undefined has no result. -/

namespace TetraOS.Console

def char (c : Char) : UInt8 := UInt8.ofNat c.toNat

def toChar (i : ℤ) : UInt8 := UInt8.ofNat (i % 256).toNat

/-- What `va_arg` may find; a pointer stands for the memory from there on. -/
inductive Arg where
  | int (i : ℤ)
  | uint64 (i : ℕ)
  | pointer (chars : ℕ → Option UInt8)

def vaInt : List Arg → Option (ℤ × List Arg)
  | .int i :: args => some (i, args)
  | _ => none

def vaUint64 : List Arg → Option (ℕ × List Arg)
  | .uint64 i :: args => some (i, args)
  | _ => none

def vaPointer : List Arg → Option ((ℕ → Option UInt8) × List Arg)
  | .pointer chars :: args => some (chars, args)
  | _ => none

section Vprintf

/-- The loop that takes digits off, with `room` places left in the buffer. -/
def storeDigits (base add : ℤ) : (room : ℕ) → (ℕ → UInt8) → (index : ℕ) → ℤ → Option ((ℕ → UInt8) × ℕ × ℤ)
  | 0, chars, index, i => if base ≤ i then none else some (chars, index, i)
  | room + 1, chars, index, i => if base ≤ i then
      storeDigits base add room (Function.update chars index (toChar (i % base + add))) (index + 1) (i / base)
    else some (chars, index, i)

def hexChar (c : UInt8) : UInt8 := c + if 9 < c then 65 - 10 else 48

variable {σ : Type} (emit : σ → UInt8 → Option σ)

def putDigits (size : ℕ) (f : UInt8 → UInt8) (chars : ℕ → UInt8) : ℕ → σ → Option σ
  | 0, out => some out
  | index + 1, out => if index < size then (emit out (f (chars index))).bind (putDigits size f chars index) else none

def printInt (i : ℤ) (out : σ) : Option σ := do
  let (chars, index, i) ← storeDigits 10 48 40 (fun _ => 0) 0 i
  let out ← emit out (toChar (i + 48))
  putDigits emit 40 id chars index out

def printHex (i : ℕ) (out : σ) : Option σ := do
  let (chars, index, i) ← storeDigits 16 0 200 (fun _ => 0) 0 i
  if index < 200 then putDigits emit 200 hexChar (Function.update chars index (toChar i)) (index + 1) out else none

/-- The loop over a string. Its `current` is an `int` that can be increased `room` times more. -/
def printString (chars : ℕ → Option UInt8) : (room current : ℕ) → σ → Option σ
  | 0, current, out => do
    let c ← chars current
    if c = 0 then some out else none
  | room + 1, current, out => do
    let c ← chars current
    if c = 0 then some out else
    let out ← emit out c
    printString chars room (current + 1) out

def intMax : ℕ := 2 ^ 31 - 1

/-- The loop over the format. A character after `%` that is no directive is left for the next round. -/
def vprintf : List UInt8 → List Arg → σ → Option (List Arg × σ)
  | [], args, out => some (args, out)
  | [c], args, out => if c = char '%' then some (args, out) else (emit out c).map fun out => (args, out)
  | c :: d :: fmt, args, out =>
    if c ≠ char '%' then (emit out c).bind (vprintf (d :: fmt) args) else
    if d = char 'd' ∨ d = char 'i' then do
      let (i, args) ← vaInt args
      let out ← printInt emit i out
      vprintf fmt args out
    else if d = char 'x' then do
      let (i, args) ← vaUint64 args
      let out ← printHex emit i out
      vprintf fmt args out
    else if d = char 's' then do
      let (chars, args) ← vaPointer args
      let out ← printString emit chars intMax 0 out
      vprintf fmt args out
    else if d = char 'c' then do
      let (i, args) ← vaInt args
      let out ← emit out (toChar i)
      vprintf fmt args out
    else vprintf (d :: fmt) args out

end Vprintf

def putChar (out : List UInt8) (c : UInt8) : Option (List UInt8) := some (out ++ [c])

def kernelVprintf (fmt : List UInt8) (args : List Arg) : Option (List Arg × List UInt8) := vprintf putChar fmt args []

def putBuffer (out : (ℕ → UInt8) × ℕ) (c : UInt8) : Option ((ℕ → UInt8) × ℕ) :=
  if out.2 < 200 then some (Function.update out.1 out.2 c, out.2 + 1) else none

def tlibcVprintf (buffer : ℕ → UInt8) (fmt : List UInt8) (args : List Arg) : Option (List Arg × List UInt8) :=
  (vprintf putBuffer fmt args (buffer, 0)).map fun (args, buffer, curr) => (args, (List.range curr).map buffer)

structure CString where
  chars : ℕ → UInt8
  length : ℕ
  nonzero : ∀ i < length, chars i ≠ 0
  terminated : chars length = 0

namespace CString

def bytes (s : CString) : List UInt8 := (List.range s.length).map s.chars

end CString

def digits (base n : ℕ) : List ℕ := if n = 0 then [0] else (Nat.digits base n).reverse

def digitChar (d : ℕ) : UInt8 := if d < 10 then char '0' + UInt8.ofNat d else char 'A' + UInt8.ofNat (d - 10)

inductive Piece where
  | plain (c : UInt8) (h : c ≠ 0 ∧ c ≠ char '%')
  | dec (letter : UInt8) (h : letter = char 'd' ∨ letter = char 'i') (n : ℕ) (hn : n < 2 ^ 31)
  | hex (n : ℕ) (hn : n < 2 ^ 64)
  | str (s : CString)
  | chr (i : ℤ)

namespace Piece

def format : Piece → List UInt8
  | plain c _ => [c]
  | dec letter _ _ _ => [char '%', letter]
  | hex _ _ => [char '%', char 'x']
  | str _ => [char '%', char 's']
  | chr _ => [char '%', char 'c']

def args : Piece → List Arg
  | plain _ _ => []
  | dec _ _ n _ => [.int n]
  | hex n _ => [.uint64 n]
  | str s => [.pointer fun i => some (s.chars i)]
  | chr i => [.int i]

def rendering : Piece → List UInt8
  | plain c _ => [c]
  | dec _ _ n _ => (digits 10 n).map digitChar
  | hex n _ => (digits 16 n).map digitChar
  | str s => s.bytes
  | chr i => [toChar i]

def Short : Piece → Prop
  | str s => s.length < 2 ^ 31
  | _ => True

end Piece

section Digits

variable {base n : ℕ}

lemma digits_of_lt (h : n < base) : digits base n = [n] := by
  rw [digits]
  split
  · rename_i hn
    rw [hn]
  · rename_i hn
    rw [Nat.digits_of_lt base n hn h, List.reverse_singleton]

lemma digits_of_le (hb : 1 < base) (h : base ≤ n) : digits base n = digits base (n / base) ++ [n % base] := by
  have hpos : 0 < n / base := Nat.div_pos h (by omega)
  rw [digits, digits, if_neg (by omega), if_neg (by omega), Nat.digits_def' hb (by omega), List.reverse_cons]

def backwards (f : UInt8 → UInt8) (chars : ℕ → UInt8) (index : ℕ) : List UInt8 :=
  ((List.range index).map fun j => f (chars j)).reverse

lemma backwards_succ (f : UInt8 → UInt8) (chars : ℕ → UInt8) (index : ℕ) :
    backwards f chars (index + 1) = f (chars index) :: backwards f chars index := by
  simp [backwards, List.range_succ]

lemma backwards_update (f : UInt8 → UInt8) (chars : ℕ → UInt8) (index : ℕ) (c : UInt8) :
    backwards f (Function.update chars index c) (index + 1) = f c :: backwards f chars index := by
  rw [backwards_succ, Function.update_self]
  congr 1
  simp only [backwards]
  congr 1
  apply List.map_congr_left
  intro j hj
  have hlt := List.mem_range.mp hj
  rw [Function.update_of_ne (by omega)]

lemma storeDigits_of_lt (h : n < base) (add : ℤ) (room : ℕ) (chars : ℕ → UInt8) (index : ℕ) :
    storeDigits base add room chars index n = some (chars, index, (n : ℤ)) := by
  cases room <;> rw [storeDigits, if_neg (by omega)]

/-- Each round moves the last digit into the buffer, so that the digits left and the buffer read backwards stay the
number. A number of `m + 1` digits takes at most `m` places. -/
lemma storeDigits_eq (hb : 1 < base) (add : ℤ) (f : UInt8 → UInt8) {m room : ℕ} (hm : m ≤ room)
    (hn : n < base ^ (m + 1))
    (chars : ℕ → UInt8) (index : ℕ) :
    ∃ (chars' : ℕ → UInt8) (index' d : ℕ), storeDigits base add room chars index n = some (chars', index', (d : ℤ)) ∧
      index' ≤ index + m ∧ f (toChar (d + add)) :: backwards f chars' index' =
        (digits base n).map (fun d : ℕ => f (toChar (d + add))) ++ backwards f chars index := by
  induction m generalizing chars index n room with
  | zero =>
    rw [zero_add, pow_one] at hn
    refine ⟨chars, index, n, storeDigits_of_lt hn add room chars index, le_rfl, ?_⟩
    rw [digits_of_lt hn, List.map_singleton, List.singleton_append]
  | succ m ih =>
    by_cases hlt : n < base
    · refine ⟨chars, index, n, storeDigits_of_lt hlt add room chars index, by omega, ?_⟩
      rw [digits_of_lt hlt, List.map_singleton, List.singleton_append]
    obtain ⟨room, rfl⟩ : ∃ k, room = k + 1 := ⟨room - 1, by omega⟩
    have hdiv : n / base < base ^ (m + 1) := Nat.div_lt_of_lt_mul (by rw [← pow_succ']; exact hn)
    obtain ⟨chars', index', d, hstore, hindex, hout⟩ :=
      ih (by omega : m ≤ room) hdiv (Function.update chars index (toChar ((n : ℤ) % base + add))) (index + 1)
    have hsplit : digits base n = digits base (n / base) ++ [n % base] := digits_of_le hb (by omega)
    refine ⟨chars', index', d, ?_, by omega, ?_⟩
    · rw [storeDigits, if_pos (by omega)]
      exact_mod_cast hstore
    · rw [hout, backwards_update, hsplit, List.map_append, List.append_assoc, List.map_singleton, List.singleton_append]
      push_cast
      rfl

end Digits

section Emission

variable {σ : Type} (emit : σ → UInt8 → Option σ)

def emitAll (bytes : List UInt8) (out : σ) : Option σ := bytes.foldlM emit out

@[simp] lemma emitAll_nil (out : σ) : emitAll emit [] out = some out := rfl

@[simp] lemma emitAll_cons (c : UInt8) (bytes : List UInt8) (out : σ) :
    emitAll emit (c :: bytes) out = (emit out c).bind (emitAll emit bytes) := rfl

lemma emitAll_append (l l' : List UInt8) (out : σ) :
    emitAll emit (l ++ l') out = (emitAll emit l out).bind (emitAll emit l') := List.foldlM_append

lemma putDigits_eq {size index : ℕ} (f : UInt8 → UInt8) (chars : ℕ → UInt8) (h : index ≤ size) (out : σ) :
    putDigits emit size f chars index out = emitAll emit (backwards f chars index) out := by
  induction index generalizing out with
  | zero => rfl
  | succ index ih =>
    rw [putDigits, if_pos (by omega), backwards_succ, emitAll_cons]
    exact Option.bind_congr fun out _ => ih (by omega) out

lemma toChar_dec {d : ℕ} (h : d < 10) : toChar (d + 48) = digitChar d := by
  interval_cases d <;> rfl

lemma hexChar_toChar {d : ℕ} (h : d < 16) : hexChar (toChar (d + 0)) = digitChar d := by
  interval_cases d <;> rfl

lemma digits_lt {base n : ℕ} (hb : 1 < base) {d : ℕ} (hd : d ∈ digits base n) : d < base := by
  rw [digits] at hd
  split at hd
  · rw [List.mem_singleton.mp hd]
    omega
  · exact Nat.digits_lt_base hb (List.mem_reverse.mp hd)

lemma printInt_eq {n : ℕ} (hn : n < 2 ^ 31) (out : σ) :
    printInt emit n out = emitAll emit ((digits 10 n).map digitChar) out := by
  obtain ⟨chars, index, d, hstore, hindex, hout⟩ := storeDigits_eq (m := 9) (n := n) (by decide : 1 < 10) 48 id
    (by decide : 9 ≤ 40) (hn.trans (by norm_num)) (fun _ => 0) 0
  have hmap : (digits 10 n).map (fun d : ℕ => id (toChar (d + 48))) = (digits 10 n).map digitChar :=
    List.map_congr_left fun d hd => toChar_dec (digits_lt (by decide) hd)
  have hstart : backwards id (fun _ => 0) 0 = [] := rfl
  rw [hmap, hstart, List.append_nil] at hout
  rw [printInt]
  change (storeDigits ((10 : ℕ) : ℤ) 48 40 (fun _ => 0) 0 n).bind _ = _
  rw [hstore, Option.bind_some, ← hout, emitAll_cons]
  exact Option.bind_congr fun out _ => putDigits_eq emit id chars (by omega) out

lemma printHex_eq {n : ℕ} (hn : n < 2 ^ 64) (out : σ) :
    printHex emit n out = emitAll emit ((digits 16 n).map digitChar) out := by
  obtain ⟨chars, index, d, hstore, hindex, hout⟩ := storeDigits_eq (m := 15) (n := n) (by decide : 1 < 16) 0 hexChar
    (by decide : 15 ≤ 200) (hn.trans_le (by norm_num)) (fun _ => 0) 0
  have hmap : (digits 16 n).map (fun d : ℕ => hexChar (toChar (d + 0))) = (digits 16 n).map digitChar :=
    List.map_congr_left fun d hd => hexChar_toChar (digits_lt (by decide) hd)
  have hstart : backwards hexChar (fun _ => 0) 0 = [] := rfl
  rw [hmap, hstart, List.append_nil, add_zero] at hout
  rw [printHex]
  change (storeDigits ((16 : ℕ) : ℤ) 0 200 (fun _ => 0) 0 n).bind _ = _
  rw [hstore, Option.bind_some, ← hout, ← backwards_update]
  have hlt : index < 200 := by omega
  dsimp only
  rw [if_pos hlt]
  exact putDigits_eq emit hexChar _ hlt out

lemma printString_eq {chars : ℕ → Option UInt8} {bytes : List UInt8} {room current : ℕ} (hroom : bytes.length ≤ room)
    (hbytes : ∀ i (hi : i < bytes.length), chars (current + i) = some bytes[i]) (hnonzero : ∀ c ∈ bytes, c ≠ 0)
    (hend : chars (current + bytes.length) = some 0) (out : σ) :
    printString emit chars room current out = emitAll emit bytes out := by
  induction bytes generalizing room current out with
  | nil =>
    have hzero : chars current = some 0 := hend
    cases room <;> rw [printString, hzero] <;> rfl
  | cons c bytes ih =>
    rw [List.length_cons] at hroom hend
    obtain ⟨room, rfl⟩ : ∃ k, room = k + 1 := ⟨room - 1, by omega⟩
    have hc : chars current = some c := hbytes 0 (by simp)
    have hne : c ≠ 0 := hnonzero c List.mem_cons_self
    have hrest : ∀ i (hi : i < bytes.length), chars (current + 1 + i) = some bytes[i] := by
      intro i hi
      have hh := hbytes (i + 1) (by simp; omega)
      rw [List.getElem_cons_succ] at hh
      rw [← hh]
      congr 1
      omega
    have hend' : chars (current + 1 + bytes.length) = some 0 := by
      rw [← hend]
      congr 1
      omega
    rw [printString, hc, emitAll_cons]
    simp only [Option.bind_eq_bind, Option.bind_some, if_neg hne]
    exact Option.bind_congr fun out _ =>
      ih (by omega) hrest (fun d hd => hnonzero d (List.mem_cons_of_mem c hd)) hend' out

lemma printString_eq_none {chars : ℕ → Option UInt8} {room current : ℕ}
    (hnonzero : ∀ i ≤ room, chars (current + i) ≠ some 0) (out : σ) :
    printString emit chars room current out = none := by
  induction room generalizing current out with
  | zero =>
    have hzero : chars current ≠ some 0 := hnonzero 0 le_rfl
    rw [printString]
    cases hc : chars current with
    | none => rfl
    | some c =>
      have hne : c ≠ 0 := fun hh => hzero (by rw [hc, hh])
      simp only [Option.bind_eq_bind, Option.bind_some, if_neg hne]
  | succ room ih =>
    have hzero : chars current ≠ some 0 := hnonzero 0 (by omega)
    have hrest : ∀ i ≤ room, chars (current + 1 + i) ≠ some 0 := by
      intro i hi
      have hh := hnonzero (i + 1) (by omega)
      rwa [show current + (i + 1) = current + 1 + i by omega] at hh
    rw [printString]
    cases hc : chars current with
    | none => rfl
    | some c =>
      have hne : c ≠ 0 := fun hh => hzero (by rw [hc, hh])
      simp only [Option.bind_eq_bind, Option.bind_some, if_neg hne]
      cases emit out c with
      | none => rfl
      | some out => exact ih hrest out

end Emission

section Pieces

variable {σ : Type} (emit : σ → UInt8 → Option σ) (fmt : List UInt8) (args : List Arg) (out : σ)

lemma vprintf_plain {c : UInt8} (h : c ≠ char '%') :
    vprintf emit (c :: fmt) args out = (emit out c).bind (vprintf emit fmt args) := by
  cases fmt with
  | nil =>
    rw [vprintf, if_neg h, Option.map_eq_bind]
    rfl
  | cons d fmt => rw [vprintf, if_pos h]

lemma CString.printString_eq (s : CString) (h : s.length < 2 ^ 31) :
    printString emit (fun i => some (s.chars i)) intMax 0 out = emitAll emit s.bytes out := by
  have hlen : s.bytes.length = s.length := by simp [CString.bytes]
  refine Console.printString_eq emit (by rw [hlen, intMax]; omega) (fun i hi => ?_) (fun c hc => ?_) ?_ out
  · simp [CString.bytes]
  · obtain ⟨i, hi, rfl⟩ := List.mem_map.mp hc
    exact s.nonzero i (List.mem_range.mp hi)
  · rw [hlen, Nat.zero_add, s.terminated]

lemma CString.printString_eq_none (s : CString) (h : ¬ s.length < 2 ^ 31) :
    printString emit (fun i => some (s.chars i)) intMax 0 out = none := by
  refine Console.printString_eq_none emit (fun i hi => ?_) out
  rw [intMax] at hi
  rw [Nat.zero_add, Ne, Option.some.injEq]
  exact s.nonzero i (by omega)

lemma vprintf_int {d : UInt8} (hd : d = char 'd' ∨ d = char 'i') (i : ℤ) :
    vprintf emit (char '%' :: d :: fmt) (.int i :: args) out = (printInt emit i out).bind (vprintf emit fmt args) := by
  rw [vprintf, if_neg (not_not.mpr rfl), if_pos hd]
  rfl

lemma vprintf_hex (i : ℕ) : vprintf emit (char '%' :: char 'x' :: fmt) (.uint64 i :: args) out =
    (printHex emit i out).bind (vprintf emit fmt args) := by
  rw [vprintf, if_neg (not_not.mpr rfl), if_neg (by decide), if_pos rfl]
  rfl

lemma vprintf_string (chars : ℕ → Option UInt8) :
    vprintf emit (char '%' :: char 's' :: fmt) (.pointer chars :: args) out =
      (printString emit chars intMax 0 out).bind (vprintf emit fmt args) := by
  rw [vprintf, if_neg (not_not.mpr rfl), if_neg (by decide), if_neg (by decide), if_pos rfl]
  rfl

lemma vprintf_char (i : ℤ) : vprintf emit (char '%' :: char 'c' :: fmt) (.int i :: args) out =
    (emit out (toChar i)).bind (vprintf emit fmt args) := by
  rw [vprintf, if_neg (not_not.mpr rfl), if_neg (by decide), if_neg (by decide), if_neg (by decide), if_pos rfl]
  rfl

lemma vprintf_piece (p : Piece) (h : p.Short) : vprintf emit (p.format ++ fmt) (p.args ++ args) out =
    (emitAll emit p.rendering out).bind (vprintf emit fmt args) := by
  cases p with
  | plain c hc =>
    refine (vprintf_plain emit fmt args out hc.2).trans ?_
    simp only [Piece.rendering, emitAll_cons]
    cases emit out c <;> rfl
  | dec letter hl n hn =>
    refine (vprintf_int emit fmt args out hl n).trans ?_
    rw [printInt_eq emit hn, Piece.rendering]
  | hex n hn =>
    refine (vprintf_hex emit fmt args out n).trans ?_
    rw [printHex_eq emit hn, Piece.rendering]
  | str s =>
    refine (vprintf_string emit fmt args out _).trans ?_
    rw [s.printString_eq emit out h, Piece.rendering]
  | chr i =>
    refine (vprintf_char emit fmt args out i).trans ?_
    simp only [Piece.rendering, emitAll_cons]
    cases emit out (toChar i) <;> rfl

lemma vprintf_piece_eq_none (p : Piece) (h : ¬ p.Short) :
    vprintf emit (p.format ++ fmt) (p.args ++ args) out = none := by
  cases p with
  | str s =>
    refine (vprintf_string emit fmt args out _).trans ?_
    rw [s.printString_eq_none emit out h, Option.bind_none]
  | plain | dec | hex | chr => exact absurd trivial h

variable (ps : List Piece) (more : List Arg)

lemma vprintf_pieces (h : ∀ p ∈ ps, p.Short) :
    vprintf emit (ps.flatMap Piece.format) (ps.flatMap Piece.args ++ more) out =
      (emitAll emit (ps.flatMap Piece.rendering) out).map fun out => (more, out) := by
  induction ps generalizing out with
  | nil => rfl
  | cons p ps ih =>
    rw [List.flatMap_cons, List.flatMap_cons, List.flatMap_cons, List.append_assoc,
      vprintf_piece emit _ _ out p (h p List.mem_cons_self), emitAll_append, Option.map_bind]
    exact Option.bind_congr fun out _ => ih out fun q hq => h q (List.mem_cons_of_mem p hq)

lemma vprintf_pieces_eq_none (h : ∃ p ∈ ps, ¬ p.Short) :
    vprintf emit (ps.flatMap Piece.format) (ps.flatMap Piece.args ++ more) out = none := by
  induction ps generalizing out with
  | nil =>
    obtain ⟨p, hp, _⟩ := h
    cases hp
  | cons p ps ih =>
    rw [List.flatMap_cons, List.flatMap_cons, List.append_assoc]
    by_cases hp : p.Short
    · obtain ⟨q, hq, hnot⟩ := h
      have hrest : ∃ p ∈ ps, ¬ p.Short := by
        rcases List.mem_cons.mp hq with rfl | hq
        · exact absurd hp hnot
        · exact ⟨q, hq, hnot⟩
      rw [vprintf_piece emit _ _ out p hp, Option.bind_eq_none_iff]
      exact fun out _ => ih out hrest
    · exact vprintf_piece_eq_none emit _ _ out p hp

end Pieces

section Sinks

variable (bytes : List UInt8)

lemma emitAll_putChar (out : List UInt8) : emitAll putChar bytes out = some (out ++ bytes) := by
  induction bytes generalizing out with
  | nil => rw [emitAll_nil, List.append_nil]
  | cons c bytes ih =>
    rw [emitAll_cons, putChar, Option.bind_some, ih, List.append_assoc, List.singleton_append]

lemma emitAll_putBuffer (buffer : ℕ → UInt8) (curr : ℕ) (h : curr + bytes.length ≤ 200) :
    ∃ buffer', emitAll putBuffer bytes (buffer, curr) = some (buffer', curr + bytes.length) ∧
      (List.range (curr + bytes.length)).map buffer' = (List.range curr).map buffer ++ bytes := by
  induction bytes generalizing buffer curr with
  | nil => exact ⟨buffer, rfl, (List.append_nil _).symm⟩
  | cons c bytes ih =>
    rw [List.length_cons] at h ⊢
    obtain ⟨buffer', hemit, hbytes⟩ := ih (Function.update buffer curr c) (curr + 1) (by omega)
    have hlen : curr + (bytes.length + 1) = curr + 1 + bytes.length := by omega
    have hfirst : (List.range (curr + 1)).map (Function.update buffer curr c) =
      (List.range curr).map buffer ++ [c] := by
      rw [List.range_succ, List.map_append, List.map_singleton, Function.update_self]
      congr 1
      apply List.map_congr_left
      intro j hj
      rw [Function.update_of_ne (List.mem_range.mp hj).ne]
    refine ⟨buffer', ?_, ?_⟩
    · rw [emitAll_cons, putBuffer, if_pos (by dsimp only; omega), Option.bind_some, hemit, hlen]
    · rw [hlen, hbytes, hfirst, List.append_assoc, List.singleton_append]

end Sinks

/-- The kernel sends the rendering to `put_char`, and the library passes it to `write`, if it fits into its buffer; in
both, the arguments of the pieces are consumed and no others. -/
def Renders (ps : List Piece) : Prop :=
  ∀ more, kernelVprintf (ps.flatMap Piece.format) (ps.flatMap Piece.args ++ more) =
      some (more, ps.flatMap Piece.rendering) ∧
    ((ps.flatMap Piece.rendering).length ≤ 200 → ∀ buffer,
      tlibcVprintf buffer (ps.flatMap Piece.format) (ps.flatMap Piece.args ++ more) =
        some (more, ps.flatMap Piece.rendering))

lemma short_of_renders {ps : List Piece} (h : Renders ps) : ∀ p ∈ ps, p.Short := by
  by_contra hnot
  push Not at hnot
  have hkernel := (h []).1
  rw [kernelVprintf, vprintf_pieces_eq_none putChar [] ps [] hnot] at hkernel
  cases hkernel

lemma renders_of_short {ps : List Piece} (h : ∀ p ∈ ps, p.Short) : Renders ps := by
  intro more
  refine ⟨?_, fun hlen buffer => ?_⟩
  · rw [kernelVprintf, vprintf_pieces putChar [] ps more h, emitAll_putChar, List.nil_append, Option.map_some]
  · obtain ⟨buffer', hemit, hbytes⟩ := emitAll_putBuffer (ps.flatMap Piece.rendering) buffer 0 (by omega)
    rw [Nat.zero_add] at hemit hbytes
    rw [tlibcVprintf, vprintf_pieces putBuffer (buffer, 0) ps more h, hemit, Option.map_some, Option.map_some]
    dsimp only
    rw [hbytes, List.range_zero, List.map_nil, List.nil_append]

/-- Both functions render every format, but for strings so long that the index into them overflows. -/
theorem renders_iff_short (ps : List Piece) : Renders ps ↔ ∀ p ∈ ps, p.Short :=
  ⟨short_of_renders, renders_of_short⟩

def longString : CString where
  chars i := if i < 2 ^ 31 then char 'a' else 0
  length := 2 ^ 31
  nonzero i hi := by
    rw [if_pos hi]
    decide
  terminated := if_neg (lt_irrefl _)

theorem not_renders_longString : ¬ Renders [.str longString] := by
  intro h
  have hshort : (2 : ℕ) ^ 31 < 2 ^ 31 := short_of_renders h _ List.mem_cons_self
  exact lt_irrefl _ hshort

end TetraOS.Console
