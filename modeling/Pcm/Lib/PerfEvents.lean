import Mathlib.Data.List.Nodup

/-!
# Files of performance events

The open files of a process that counts events through `perf_event_open`, in the order in which they were
opened. A file may have another one as its group leader. What a read gives is up to the kernel: of it only what
is documented is assumed, that reading the leader of a group gives the number of its members and their counts in the
order in which they were opened, and that reading a file without the format of a group gives its count.
-/

namespace Pcm.PerfEvents

/-- An open file: the event `attr` of thread `tid` on processor `cpu`, in the group of `leader`. -/
structure File (α : Type*) where
  fd : Nat
  attr : α
  tid : Int
  cpu : Nat
  leader : Option Nat

variable {α : Type*}

/-- The group of a leader. -/
def group (files : List (File α)) (fd : Nat) : List (File α) :=
  files.filter fun f => f.fd = fd ∨ f.leader = some fd

def close (files : List (File α)) (fd : Nat) : List (File α) := files.filter fun f => f.fd ≠ fd

def closeAll (files : List (File α)) (fds : List Nat) : List (File α) := fds.foldl close files

def fds (files : List (File α)) : List Nat := files.map File.fd

theorem fds_close (files : List (File α)) (fd : Nat) : fds (close files fd) = (fds files).filter (· ≠ fd) := by
  rw [fds, close, fds, List.filter_map]
  rfl

/-- Nothing stays open where every file is closed. -/
theorem closeAll_eq_nil {files : List (File α)} {closed : List Nat} (all : ∀ fd ∈ fds files, fd ∈ closed) :
    closeAll files closed = [] := by
  have left : ∀ (closed : List Nat) (files : List (File α)),
      fds (closeAll files closed) = (fds files).filter (· ∉ closed) := by
    intro closed
    induction closed with
    | nil => intro files; simp [closeAll]
    | cons fd closed ih =>
        intro files
        have step : closeAll files (fd :: closed) = closeAll (close files fd) closed := rfl
        rw [step, ih, fds_close, List.filter_filter]
        congr 1
        funext x
        simp [Bool.and_comm]
  have none_left : fds (closeAll files closed) = [] := by
    rw [left, List.filter_eq_nil_iff]
    intro fd member
    simpa using all fd member
  exact List.map_eq_nil_iff.mp none_left

/-! ## Reading -/

/-- The counts of the files, and what a read of a file with room for some words gives; `none` is an error. -/
structure Kernel where
  count : Nat → BitVec 64
  read : Nat → Nat → Option (List (BitVec 64))

/-- The number of the members of a group, and their counts. -/
def Kernel.values (kernel : Kernel) (files : List (File α)) (fd : Nat) : List (BitVec 64) :=
  BitVec.ofNat 64 (group files fd).length :: (group files fd).map fun f => kernel.count f.fd

/-- What the manual page of `perf_event_open` says of reads that succeed. The events with `grouped` have the format of
a group. -/
structure Kernel.Documented (kernel : Kernel) (grouped : α → Prop) (files : List (File α)) : Prop where
  room : ∀ fd room data, kernel.read fd room = some data → data.length ≤ room
  single : ∀ f ∈ files, ¬ grouped f.attr → ∀ room data, kernel.read f.fd room = some data →
    data = [kernel.count f.fd]
  group : ∀ f ∈ files, grouped f.attr → f.leader = none → ∀ room data, kernel.read f.fd room = some data →
    data = kernel.values files f.fd

/-- And that reads with enough room do succeed. -/
structure Kernel.Answers (kernel : Kernel) (grouped : α → Prop) (files : List (File α)) : Prop
    extends kernel.Documented grouped files where
  answersSingle : ∀ f ∈ files, ¬ grouped f.attr → ∀ room, 1 ≤ room → (kernel.read f.fd room).isSome
  answersGroup : ∀ f ∈ files, grouped f.attr → f.leader = none → ∀ room,
    (kernel.values files f.fd).length ≤ room → (kernel.read f.fd room).isSome

section Documented

variable {kernel : Kernel} {grouped : α → Prop} {files : List (File α)} {f : File α}

theorem Kernel.Answers.read_single (answers : kernel.Answers grouped files) (member : f ∈ files)
    (alone : ¬ grouped f.attr) {room : Nat} (enough : 1 ≤ room) : kernel.read f.fd room = some [kernel.count f.fd] := by
  obtain ⟨data, read⟩ := Option.isSome_iff_exists.mp (answers.answersSingle f member alone room enough)
  rw [read, answers.single f member alone room data read]

theorem Kernel.Answers.read_group (answers : kernel.Answers grouped files) (member : f ∈ files)
    (leads : grouped f.attr) (first : f.leader = none) {room : Nat}
    (enough : (kernel.values files f.fd).length ≤ room) :
    kernel.read f.fd room = some (kernel.values files f.fd) := by
  obtain ⟨data, read⟩ := Option.isSome_iff_exists.mp (answers.answersGroup f member leads first room enough)
  rw [read, answers.group f member leads first room data read]

end Documented

/-- A kernel that answers whenever there is room. -/
def Kernel.ofCounts (count : Nat → BitVec 64) (grouped : α → Bool) (files : List (File α)) : Kernel where
  count := count
  read := fun fd room =>
    (files.find? fun f => f.fd = fd).bind fun f =>
      Option.guard (fun data => data.length ≤ room) <|
        if grouped f.attr then BitVec.ofNat 64 (group files fd).length :: (group files fd).map fun f => count f.fd
        else [count fd]

theorem answers_ofCounts (count : Nat → BitVec 64) (grouped : α → Bool) {files : List (File α)}
    (distinct : (fds files).Nodup) :
    (Kernel.ofCounts count grouped files).Answers (fun attr => grouped attr = true) files := by
  have own : ∀ f ∈ files, files.find? (fun g => g.fd = f.fd) = some f := by
    intro f member
    obtain ⟨g, found⟩ := Option.isSome_iff_exists.mp
      (List.find?_isSome.mpr ⟨f, member, by simp⟩ : (files.find? fun g => g.fd = f.fd).isSome)
    have same : g.fd = f.fd := by simpa using List.find?_some found
    rw [found, List.inj_on_of_nodup_map distinct (List.mem_of_find?_eq_some found) member same]
  refine ⟨⟨?_, ?_, ?_⟩, ?_, ?_⟩
  · intro fd room data read
    obtain ⟨f, -, given⟩ := Option.bind_eq_some_iff.mp read
    obtain ⟨rfl, fits⟩ := Option.guard_eq_some_iff.mp given
    exact of_decide_eq_true fits
  · intro f member alone room data read
    simp only [Kernel.ofCounts, own f member, Option.bind_some, if_neg alone] at read
    exact (Option.guard_eq_some_iff.mp read).1.symm
  · intro f member leads first room data read
    simp only [Kernel.ofCounts, own f member, Option.bind_some, if_pos leads] at read
    exact (Option.guard_eq_some_iff.mp read).1.symm
  · intro f member alone room enough
    simp [Kernel.ofCounts, own f member, alone, enough]
  · intro f member leads first room enough
    simp only [Kernel.values, List.length_cons, List.length_map, Kernel.ofCounts] at enough
    simp [Kernel.ofCounts, own f member, leads, enough]

end Pcm.PerfEvents
