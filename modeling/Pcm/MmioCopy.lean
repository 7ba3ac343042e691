import Mathlib.Data.List.TakeWhile
import Pcm.RawOutput

/-!
# Copies of physical memory

`mmio_memcpy` (`mmio.cpp:329-356`) copies words from a range of physical addresses that is mapped for the copy.
With `checkFailures` a word of ones only is a bad read: the copy throws, and keeps the words before it.
-/

namespace Pcm.Mmio

open StdString

abbrev Word := BitVec 32

/-- The physical memory during one copy. -/
structure Memory where
  /-- What the constructor of `MMIORange` throws for a base address and a size. -/
  mapping : Nat → Nat → Option Bytes
  read32 : Nat → Word

def roundDownTo4K (number : Nat) : Nat := number / 4096 * 4096

def roundUpTo4K (number : Nat) : Nat :=
  if number % 4096 = 0 then number else (number / 4096 + 1) * 4096 % 2 ^ 64

/-- A value that no register has. -/
def badValue : Word := BitVec.allOnes 32

def badRead (address : Nat) : StdException :=
  .runtime_error (ascii "Failed to read memory at 0x" ++ Raw.hexadecimal address ++ [10])

/-- The loop of a copy, for `n` words from an address on: the words that it stores, and how it ends. -/
def copyWords (read32 : Nat → Word) (checkFailures : Bool) : Nat → Nat → List Word × Except StdException Unit
  | 0, _ => ([], .ok ())
  | n + 1, i =>
      if checkFailures ∧ read32 i = badValue then ([], .error (badRead i))
      else (read32 i :: (copyWords read32 checkFailures n (i + 4)).1, (copyWords read32 checkFailures n (i + 4)).2)

/-- `end`, which may have wrapped around. -/
def rangeEnd (src n : Nat) : Nat := (src + n) % 2 ^ 64

/-- The number of iterations, for an `n` that is a multiple of four. -/
def wordCount (src n : Nat) : Nat := (rangeEnd src n - src) / 4

/-- What the constructor of the mapped range throws. -/
def mapRange (m : Memory) (src n : Nat) : Option Bytes :=
  m.mapping (roundDownTo4K src) (minus (roundUpTo4K (rangeEnd src n)) (roundDownTo4K src))

/-- `mmio_memcpy`, with the words of the destination before and after. -/
def mmioMemcpy (m : Memory) (dest : List Word) (src n : Nat) (checkFailures : Bool) :
    List Word × Except StdException Unit :=
  match mapRange m src n with
  | some what => (dest, .error (.runtime_error what))
  | none =>
      let copied := copyWords m.read32 checkFailures (wordCount src n) src
      (copied.1 ++ dest.drop copied.1.length, copied.2)

/-- The `k`-th of the 64-bit words of an object that is filled with words. -/
def tableWord (words : List Word) (k : Nat) : BitVec 64 := words.getD (2 * k + 1) 0 ++ words.getD (2 * k) 0

/-- The words from an address on. -/
def wordsFrom (read32 : Nat → Word) : Nat → Nat → List Word
  | 0, _ => []
  | n + 1, i => read32 i :: wordsFrom read32 n (i + 4)

/-- The words that are copied if none of them is a bad read. -/
def rangeWords (m : Memory) (src n : Nat) : List Word := wordsFrom m.read32 (wordCount src n) src

/-- The range can be mapped, and there is no bad read in it. -/
def Readable (m : Memory) (src n : Nat) : Prop :=
  mapRange m src n = none ∧ badValue ∉ rangeWords m src n

/-- The range does not wrap around either. -/
def ReadFully (m : Memory) (src n : Nat) : Prop := Readable m src n ∧ src + n < 2 ^ 64

instance (m : Memory) (src n : Nat) : Decidable (Readable m src n) := instDecidableAnd

instance (m : Memory) (src n : Nat) : Decidable (ReadFully m src n) := instDecidableAnd

section Copies

variable {m : Memory} {src n : Nat} {read32 : Nat → Word}

theorem length_wordsFrom (n i : Nat) : (wordsFrom read32 n i).length = n := by
  induction n generalizing i with
  | zero => rfl
  | succ n ih => exact congrArg (· + 1) (ih (i + 4))

theorem copyWords_unchecked (n i : Nat) : copyWords read32 false n i = (wordsFrom read32 n i, .ok ()) := by
  induction n generalizing i with
  | zero => rfl
  | succ n ih =>
      rw [copyWords, if_neg (fun both => Bool.false_ne_true both.1), ih]
      rfl

/-- The words before the first bad read are stored. -/
theorem copyWords_stored (n i : Nat) :
    (copyWords read32 true n i).1 = (wordsFrom read32 n i).takeWhile (fun word => word ≠ badValue) := by
  induction n generalizing i with
  | zero => rfl
  | succ n ih =>
      rw [copyWords, wordsFrom]
      by_cases bad : read32 i = badValue
      · rw [if_pos ⟨rfl, bad⟩, List.takeWhile_cons_of_neg (by simpa using bad)]
      · rw [if_neg (fun both => bad both.2), List.takeWhile_cons_of_pos (by simpa using bad), ih]

theorem copyWords_ok_iff (n i : Nat) :
    (copyWords read32 true n i).2 = .ok () ↔ badValue ∉ wordsFrom read32 n i := by
  induction n generalizing i with
  | zero => exact iff_of_true rfl List.not_mem_nil
  | succ n ih =>
      rw [copyWords, wordsFrom, List.mem_cons, not_or]
      by_cases bad : read32 i = badValue
      · rw [if_pos ⟨rfl, bad⟩]
        exact iff_of_false (fun same => by cases same) (fun both => both.1 bad.symm)
      · rw [if_neg (fun both => bad both.2), ih]
        exact (and_iff_right (Ne.symm bad)).symm

theorem mmioMemcpy_unmapped {what : Bytes} (failed : mapRange m src n = some what) (dest : List Word)
    (checkFailures : Bool) : mmioMemcpy m dest src n checkFailures = (dest, .error (.runtime_error what)) := by
  rw [mmioMemcpy, failed]

theorem mmioMemcpy_mapped (mapped : mapRange m src n = none) (dest : List Word) (checkFailures : Bool) :
    mmioMemcpy m dest src n checkFailures =
      ((copyWords m.read32 checkFailures (wordCount src n) src).1 ++
          dest.drop (copyWords m.read32 checkFailures (wordCount src n) src).1.length,
        (copyWords m.read32 checkFailures (wordCount src n) src).2) := by
  rw [mmioMemcpy, mapped]

/-- A checked copy throws nothing exactly when its range is readable. -/
theorem mmioMemcpy_ok_iff (dest : List Word) : (mmioMemcpy m dest src n true).2 = .ok () ↔ Readable m src n := by
  cases mapped : mapRange m src n with
  | some what =>
      rw [mmioMemcpy_unmapped mapped, Readable, mapped]
      exact iff_of_false (fun same => by cases same) (fun readable => by cases readable.1)
  | none =>
      rw [mmioMemcpy_mapped mapped, copyWords_ok_iff, Readable, mapped]
      exact (and_iff_right rfl).symm

theorem exists_error {result : Except StdException Unit} (failed : result ≠ .ok ()) : ∃ e, result = .error e := by
  cases result with
  | error e => exact ⟨e, rfl⟩
  | ok u => exact absurd rfl failed

theorem wordCount_of_lt (below : src + n < 2 ^ 64) : wordCount src n = n / 4 := by
  rw [wordCount, rangeEnd, Nat.mod_eq_of_lt below, Nat.add_sub_cancel_left]

/-- A copy of a range that is read fully fills a destination of its size. -/
theorem mmioMemcpy_full (full : ReadFully m src n) {dest : List Word} (size : dest.length = n / 4) :
    mmioMemcpy m dest src n true = (rangeWords m src n, .ok ()) := by
  obtain ⟨⟨mapped, good⟩, below⟩ := full
  have ok : (copyWords m.read32 true (wordCount src n) src).2 = .ok () := (copyWords_ok_iff _ _).mpr good
  have stored : (copyWords m.read32 true (wordCount src n) src).1 = rangeWords m src n := by
    rw [copyWords_stored]
    exact List.takeWhile_eq_self_iff.mpr (fun word member => decide_eq_true (fun bad => good (bad ▸ member)))
  have length : (rangeWords m src n).length = dest.length := by
    rw [rangeWords, length_wordsFrom, wordCount_of_lt below, size]
  rw [mmioMemcpy_mapped mapped, ok, stored, length, List.drop_length, List.append_nil]

end Copies

end Pcm.Mmio
