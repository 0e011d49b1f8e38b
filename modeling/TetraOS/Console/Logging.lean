import TetraOS.Console.NegativeNumbers

/-! The log of the kernel (kernel/libk/logging.cpp). -/

namespace TetraOS.Console

inductive LogLevel where
  | debug | paging | virtualMemory | physicalMemory | system | error | virtio | warning | fs | process | exception
  | syscall

namespace LogLevel

def bit : LogLevel → ℕ
  | debug => 1
  | paging => 2
  | virtualMemory => 4
  | physicalMemory => 8
  | system => 16
  | error => 32
  | virtio => 64
  | warning => 128
  | fs => 256
  | process => 512
  | exception => 1024
  | syscall => 2048

def tag : LogLevel → List Char
  | debug => ['[', 'D', 'E', 'B', 'U', 'G', ']']
  | paging => ['[', 'P', 'A', 'G', 'I', 'N', 'G', ']']
  | virtualMemory => ['[', 'V', 'M', 'E', 'M', ']']
  | physicalMemory => ['[', 'P', 'M', 'E', 'M', ']']
  | system => ['[', 'S', 'Y', 'S', 'T', 'E', 'M', ']']
  | error => red ++ ['[', 'E', 'R', 'R', 'O', 'R', ']'] ++ white
  | virtio => ['[', 'V', 'I', 'R', 'T', 'I', 'O', ']']
  | warning => yellow ++ ['[', 'W', 'A', 'R', 'N', ']'] ++ white
  | fs => ['[', 'F', 'S', ']']
  | process => ['[', 'P', 'R', 'O', 'C', 'E', 'S', 'S', ']']
  | exception => red ++ ['[', 'E', 'X', 'C', 'E', 'P', 'T', 'I', 'O', 'N', ']'] ++ white
  | syscall => ['[', 'S', 'Y', 'S', 'C', 'A', 'L', 'L', ']']
where
  red := ['\x1b', '[', '3', '1', 'm']
  yellow := ['\x1b', '[', '3', '3', 'm']
  white := ['\x1b', '[', '3', '7', 'm']

end LogLevel

/-- What is sent to `put_char` for a message, where `logLevel` is the level that was set. -/
def log (logLevel : ℕ) (level : LogLevel) (fmt : List UInt8) (args : List Arg) : Option (List UInt8) :=
  if logLevel &&& level.bit = 0 then some [] else do
  let (_, tag) ← kernelVprintf (level.tag.map char) []
  let (_, space) ← kernelVprintf [char ' '] []
  let (_, text) ← kernelVprintf fmt args
  let (_, newline) ← kernelVprintf [char '\n'] []
  some (tag ++ space ++ text ++ newline)

section Lines

variable {text : List UInt8} (h : char '%' ∉ text)
include h

lemma vprintf_append {σ : Type} (emit : σ → UInt8 → Option σ) (fmt : List UInt8) (args : List Arg) (out : σ) :
    vprintf emit (text ++ fmt) args out = (emitAll emit text out).bind (vprintf emit fmt args) := by
  induction text generalizing out with
  | nil => rfl
  | cons c text ih =>
    rw [List.cons_append, vprintf_plain emit _ args out (List.ne_of_not_mem_cons h).symm, emitAll_cons,
      Option.bind_assoc]
    exact Option.bind_congr fun out _ => ih (List.not_mem_of_not_mem_cons h) out

lemma kernelVprintf_append {fmt : List UInt8} {args rest : List Arg} {bytes : List UInt8}
    (hputs : ∀ out, vprintf putChar fmt args out = some (rest, out ++ bytes)) :
    kernelVprintf (text ++ fmt) args = some (rest, text ++ bytes) := by
  rw [kernelVprintf, vprintf_append h, emitAll_putChar, Option.bind_some, hputs, List.nil_append]

lemma kernelVprintf_plain : kernelVprintf text [] = some ([], text) := by
  have hh : kernelVprintf (text ++ []) [] = some ([], text ++ []) := kernelVprintf_append h fun out => by
    rw [vprintf, List.append_nil]
  rwa [List.append_nil] at hh

end Lines

/-- A number as `%i` puts it out, of which a negative one is a single byte. -/
def intText (i : ℤ) : List UInt8 := if i < 0 then [toChar (i + 48)] else (digits 10 i.toNat).map digitChar

def hexText (n : ℕ) : List UInt8 := (digits 16 n).map digitChar

section Numbers

variable (fmt : List UInt8) (args : List Arg) (out : List UInt8)

lemma vprintf_intText {i : ℤ} (hi : i < 2 ^ 31) :
    vprintf putChar (char '%' :: char 'i' :: fmt) (.int i :: args) out =
      vprintf putChar fmt args (out ++ intText i) := by
  rw [intText]
  split_ifs with hneg
  · rw [vprintf_of_neg hneg (Or.inr rfl)]
    rfl
  · obtain ⟨n, rfl⟩ := Int.eq_ofNat_of_zero_le (by omega : 0 ≤ i)
    rw [vprintf_int _ _ _ _ (Or.inr rfl), printInt_eq putChar (by omega), emitAll_putChar]
    rfl

lemma vprintf_hexText {n : ℕ} (hn : n < 2 ^ 64) :
    vprintf putChar (char '%' :: char 'x' :: fmt) (.uint64 n :: args) out =
      vprintf putChar fmt args (out ++ hexText n) := by
  rw [vprintf_hex, printHex_eq putChar hn, emitAll_putChar]
  rfl

end Numbers

lemma tag_plain (level : LogLevel) : char '%' ∉ level.tag.map char := by
  cases level <;> decide

lemma log_eq (logLevel : ℕ) (level : LogLevel) {fmt text : List UInt8} {args rest : List Arg}
    (hprints : kernelVprintf fmt args = some (rest, text)) :
    log logLevel level fmt args = some (if logLevel &&& level.bit = 0 then [] else
      level.tag.map char ++ [char ' '] ++ text ++ [char '\n']) := by
  have hspace : kernelVprintf [char ' '] [] = some ([], [char ' ']) := kernelVprintf_plain (by decide)
  have hnewline : kernelVprintf [char '\n'] [] = some ([], [char '\n']) := kernelVprintf_plain (by decide)
  rw [log]
  split_ifs
  · rfl
  · simp only [kernelVprintf_plain (tag_plain level), hspace, hprints, hnewline, Option.bind_eq_bind,
      Option.bind_some]

end TetraOS.Console
