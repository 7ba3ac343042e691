import Pcm.ApicId
import Mathlib.Data.Nat.Log

/-!
# Masks of the APIC id

`initCoreMasks` takes the widths of the thread's and the core's part of an APIC id from CPUID leaf 0xB and the
shift for the L2 cache from leaf 4; `fillEntry` takes the ids of a logical processor out of its APIC id with them
(`topologyentry.h:117-250`). The shift is found by halving the number of APIC ids that share the cache. That rounds
the logarithm down, so where the number is no power of two one cache's APIC ids get two tiles.
-/

namespace Pcm.Topology

/-- A subleaf of CPUID leaf 0xB. -/
structure LeafB where
  eax : BitVec 32
  ebx : BitVec 32
  ecx : BitVec 32
  deriving DecidableEq, Repr

/-- What `initCoreMasks` asks for: the subleaves of leaf 0xB, behind which EBX is zero, and EAX of the subleaves
2 and 3 of leaf 4. -/
structure CacheLeaves where
  leafB : List LeafB
  l2 : BitVec 32
  l3 : BitVec 32
  deriving DecidableEq, Repr

/-- The variables of the loop over leaf 0xB. -/
structure Levels where
  smtMaskWidth : BitVec 32 := 0
  corePlusSMTMaskWidth : BitVec 32 := 0
  wasThreadReported : Bool := false
  wasCoreReported : Bool := false
  deriving DecidableEq, Repr

def Levels.report (levels : Levels) (r : LeafB) : Levels :=
  let levelType := extractBits32 r.ecx 8 15
  let levelShift := extractBits32 r.eax 0 4
  if levelType = 1 then { levels with smtMaskWidth := levelShift, wasThreadReported := true }
  else if levelType = 2 then { levels with corePlusSMTMaskWidth := levelShift, wasCoreReported := true }
  else levels

/-- The loop ends at the first subleaf that is not valid. -/
def readLevels (levels : Levels) : List LeafB → Levels
  | [] => levels
  | r :: rest => if r.ebx = 0 then levels else readLevels (levels.report r) rest

/-- The number of APIC ids that share a cache. -/
def sharingCache (eax : BitVec 32) : BitVec 32 := 1 + extractBits32 eax 14 25

/-- `for( ; width > 1; width >>= 1) shift++`; nothing is left of a width after 32 rounds. -/
def cacheMaskShift (width shift : BitVec 32) : Nat → BitVec 32
  | 0 => shift
  | rounds + 1 => if 1 < width then cacheMaskShift (width >>> 1) (shift + 1) rounds else shift

structure Masks where
  smtMaskWidth : BitVec 32
  coreMaskWidth : BitVec 32
  l2CacheMaskShift : BitVec 32
  l3CacheMaskShift : BitVec 32
  deriving DecidableEq, Repr

/-- `coreMaskWidth`; no levels, no masks. -/
def Levels.coreMaskWidth (levels : Levels) : Option (BitVec 32) :=
  if levels.wasThreadReported = true ∧ levels.wasCoreReported = true then
    some (levels.corePlusSMTMaskWidth - levels.smtMaskWidth)
  else if levels.wasCoreReported = false ∧ levels.wasThreadReported = true then some levels.smtMaskWidth
  else none

/-- `initCoreMasks` (`topologyentry.h:132-249`), called with all masks zero. -/
def initCoreMasks (cpuid : CacheLeaves) : Option Masks :=
  let levels := readLevels {} cpuid.leafB
  let l2CacheMaskShift := cacheMaskShift (sharingCache cpuid.l2) 0 32
  let l3CacheMaskShift := cacheMaskShift (sharingCache cpuid.l3) 0 32
  levels.coreMaskWidth.bind fun coreMaskWidth =>
    if 31 < l3CacheMaskShift then none
    else some { smtMaskWidth := levels.smtMaskWidth, coreMaskWidth := coreMaskWidth,
                l2CacheMaskShift := l2CacheMaskShift, l3CacheMaskShift := l3CacheMaskShift }

/-- `fillEntry` (`topologyentry.h:117-130`) -/
def fillEntry (entry : TopologyEntry) (masks : Masks) (apic_id : BitVec 32) : TopologyEntry :=
  let thread_id :=
    if masks.smtMaskWidth ≠ 0 then extractBits32 apic_id 0 (masks.smtMaskWidth - 1) else 0
  let core_id :=
    if masks.coreMaskWidth ≠ 0 then
      extractBits32 apic_id masks.smtMaskWidth (masks.smtMaskWidth + masks.coreMaskWidth - 1)
    else 0
  { entry with
    thread_id := thread_id.toInt
    core_id := core_id.toInt
    socket_id := (extractBits32 apic_id (masks.smtMaskWidth + masks.coreMaskWidth) 31).toInt
    tile_id := (extractBits32 apic_id masks.l2CacheMaskShift 31).toInt
    socket_unique_core_id := core_id.toInt }

/-! ## The parts of an APIC id -/

/-- The ids put together give the APIC id, and each but the socket's fits its width. The socket's id counts as the
unsigned number its 32 bits stand for: it has all of them where both widths are zero. -/
structure Decomposed (masks : Masks) (entry : TopologyEntry) (a : BitVec 32) : Prop where
  whole : (a.toNat : Int) = entry.thread_id + entry.core_id * 2 ^ masks.smtMaskWidth.toNat +
    (BitVec.ofInt 32 entry.socket_id).toNat * 2 ^ (masks.smtMaskWidth.toNat + masks.coreMaskWidth.toNat)
  thread : 0 ≤ entry.thread_id ∧ entry.thread_id < 2 ^ masks.smtMaskWidth.toNat
  core : 0 ≤ entry.core_id ∧ entry.core_id < 2 ^ masks.coreMaskWidth.toNat

variable {masks : Masks} {entry : TopologyEntry} {a : BitVec 32}

/-- The bits of a level, which are none on a level of width zero. -/
theorem level_toNat (lo width a : BitVec 32) (small : lo.toNat + width.toNat ≤ 32) :
    (if width ≠ 0 then extractBits32 a lo (lo + width - 1) else 0).toNat =
      a.toNat / 2 ^ lo.toNat % 2 ^ width.toNat := by
  have bits : (lo + width).toNat = lo.toNat + width.toNat := by
    rw [BitVec.toNat_add, Nat.mod_eq_of_lt (by omega)]
  by_cases empty : width = 0
  · subst empty
    simp [Nat.mod_one]
  · have positive : 0 < width.toNat := by
      apply Nat.pos_of_ne_zero
      intro zero
      exact empty (BitVec.eq_of_toNat_eq zero)
    rw [if_pos empty, extract_wide (by omega) (by omega), bits, Nat.add_sub_cancel_left]

/-- An id of at most 31 bits is not negative. -/
theorem level_toInt {x : BitVec 32} {width : Nat} (below : x.toNat < 2 ^ width) (narrow : width ≤ 31) :
    x.toInt = x.toNat := by
  have bound : 2 ^ width ≤ 2 ^ 31 := Nat.pow_le_pow_right (by decide) narrow
  apply BitVec.toInt_eq_toNat_of_lt
  omega

theorem decomposed_fillEntry (narrow : masks.smtMaskWidth.toNat + masks.coreMaskWidth.toNat ≤ 31)
    (entry : TopologyEntry) (a : BitVec 32) : Decomposed masks (fillEntry entry masks a) a := by
  generalize smt : masks.smtMaskWidth = s at narrow
  generalize core : masks.coreMaskWidth = c at narrow
  have threadBits : (if s ≠ 0 then extractBits32 a 0 (s - 1) else 0).toNat = a.toNat % 2 ^ s.toNat := by
    have level := level_toNat 0 s a (by rw [show (0 : BitVec 32).toNat = 0 from rfl]; omega)
    have start : (0 : BitVec 32) + s = s := BitVec.zero_add s
    rwa [start, show (0 : BitVec 32).toNat = 0 from rfl, Nat.pow_zero, Nat.div_one] at level
  have coreBits : (if c ≠ 0 then extractBits32 a s (s + c - 1) else 0).toNat =
      a.toNat / 2 ^ s.toNat % 2 ^ c.toNat := level_toNat s c a (by omega)
  have sum : (s + c).toNat = s.toNat + c.toNat := by
    rw [BitVec.toNat_add, Nat.mod_eq_of_lt (by omega)]
  have socketBits : (extractBits32 a (s + c) 31).toNat = a.toNat / 2 ^ (s.toNat + c.toNat) := by
    have last : (31 : BitVec 32).toNat = 31 := rfl
    rw [extractBits32_toNat a (by rw [sum, last]; exact narrow) (by decide), sum, last]
    apply Nat.mod_eq_of_lt
    apply Nat.div_lt_of_lt_mul
    rw [← Nat.pow_add, show s.toNat + c.toNat + (31 - (s.toNat + c.toNat) + 1) = 32 by omega]
    exact a.isLt
  have threadLow : a.toNat % 2 ^ s.toNat < 2 ^ s.toNat := Nat.mod_lt _ (Nat.two_pow_pos _)
  have coreLow : a.toNat / 2 ^ s.toNat % 2 ^ c.toNat < 2 ^ c.toNat := Nat.mod_lt _ (Nat.two_pow_pos _)
  have thread : (fillEntry entry masks a).thread_id = (a.toNat % 2 ^ s.toNat : Nat) := by
    simp only [fillEntry, smt]
    rw [level_toInt (threadBits ▸ threadLow) (by omega), threadBits]
  have coreId : (fillEntry entry masks a).core_id = (a.toNat / 2 ^ s.toNat % 2 ^ c.toNat : Nat) := by
    simp only [fillEntry, smt, core]
    rw [level_toInt (coreBits ▸ coreLow) (by omega), coreBits]
  have socket : BitVec.ofInt 32 (fillEntry entry masks a).socket_id = extractBits32 a (s + c) 31 := by
    simp only [fillEntry, smt, core]
    exact BitVec.ofInt_toInt
  -- first the thread's bits are split off, then the core's
  have whole : a.toNat = a.toNat % 2 ^ s.toNat + a.toNat / 2 ^ s.toNat % 2 ^ c.toNat * 2 ^ s.toNat +
      a.toNat / 2 ^ (s.toNat + c.toNat) * 2 ^ (s.toNat + c.toNat) := by
    have low := Nat.mod_add_div a.toNat (2 ^ s.toNat)
    have high := Nat.mod_add_div (a.toNat / 2 ^ s.toNat) (2 ^ c.toNat)
    rw [Nat.div_div_eq_div_mul, ← Nat.pow_add] at high
    calc a.toNat = a.toNat % 2 ^ s.toNat + 2 ^ s.toNat * (a.toNat / 2 ^ s.toNat) := low.symm
      _ = a.toNat % 2 ^ s.toNat + 2 ^ s.toNat * (a.toNat / 2 ^ s.toNat % 2 ^ c.toNat +
            2 ^ c.toNat * (a.toNat / 2 ^ (s.toNat + c.toNat))) := by rw [high]
      _ = _ := by rw [Nat.pow_add]; ring
  refine ⟨?_, ?_, ?_⟩
  · rw [thread, coreId, socket, socketBits, smt, core]
    exact_mod_cast whole
  · rw [thread, smt]
    exact_mod_cast And.intro (Nat.zero_le _) threadLow
  · rw [coreId, core]
    exact_mod_cast And.intro (Nat.zero_le _) coreLow

/-! ## The shift for a cache -/

/-- The loop counts how often the width can be halved: the logarithm, rounded down. -/
theorem cacheMaskShift_toNat {rounds : Nat} {width shift : BitVec 32} (enough : width.toNat < 2 ^ rounds)
    (small : shift.toNat + rounds < 2 ^ 32) :
    (cacheMaskShift width shift rounds).toNat = shift.toNat + Nat.log 2 width.toNat := by
  induction rounds generalizing width shift with
  | zero =>
      have none : width.toNat = 0 := by simpa using enough
      simp [cacheMaskShift, none]
  | succ rounds ih =>
      have one : (1 : BitVec 32).toNat = 1 := rfl
      by_cases more : 1 < width
      · have two : 2 ≤ width.toNat := by
          rw [BitVec.lt_def, one] at more
          exact more
        have half : (width >>> 1).toNat = width.toNat / 2 := by
          rw [BitVec.toNat_ushiftRight, Nat.shiftRight_eq_div_pow, Nat.pow_one]
        have next : (shift + 1).toNat = shift.toNat + 1 := by
          rw [BitVec.toNat_add, one, Nat.mod_eq_of_lt (by omega)]
        rw [cacheMaskShift, if_pos more, ih (by omega) (by omega), half, next,
          Nat.log_of_one_lt_of_le (by decide) two]
        omega
      · have last : width.toNat < 2 := by
          rw [BitVec.lt_def, one] at more
          omega
        rw [cacheMaskShift, if_neg more, Nat.log_of_lt last]
        rfl

theorem sharingCache_toNat (eax : BitVec 32) :
    (sharingCache eax).toNat = 1 + eax.toNat / 2 ^ 14 % 2 ^ 12 := by
  have field : (extractBits32 eax 14 25).toNat = eax.toNat / 2 ^ 14 % 2 ^ 12 :=
    extractBits32_toNat eax (by decide) (by decide)
  have below : eax.toNat / 2 ^ 14 % 2 ^ 12 < 2 ^ 12 := Nat.mod_lt _ (by decide)
  rw [sharingCache, BitVec.toNat_add, field, show (1 : BitVec 32).toNat = 1 from rfl, Nat.mod_eq_of_lt (by omega)]

/-- The shift that `initCoreMasks` finds for the L2 cache. -/
theorem l2CacheMaskShift_toNat {cpuid : CacheLeaves} (found : initCoreMasks cpuid = some masks) :
    masks.l2CacheMaskShift.toNat = Nat.log 2 (sharingCache cpuid.l2).toNat ∧
      masks.l2CacheMaskShift.toNat ≤ 12 := by
  simp only [initCoreMasks, Option.bind_eq_some_iff] at found
  obtain ⟨coreMaskWidth, _, result⟩ := found
  have shift : masks.l2CacheMaskShift = cacheMaskShift (sharingCache cpuid.l2) 0 32 := by
    split at result
    · cases result
    · cases result
      rfl
  have count : (cacheMaskShift (sharingCache cpuid.l2) 0 32).toNat =
      (0 : BitVec 32).toNat + Nat.log 2 (sharingCache cpuid.l2).toNat :=
    cacheMaskShift_toNat (sharingCache cpuid.l2).isLt (by decide)
  rw [show (0 : BitVec 32).toNat = 0 from rfl, Nat.zero_add] at count
  rw [shift, count]
  refine ⟨rfl, ?_⟩
  have ids := sharingCache_toNat cpuid.l2
  have below : cpuid.l2.toNat / 2 ^ 14 % 2 ^ 12 < 2 ^ 12 := Nat.mod_lt _ (by decide)
  exact Nat.le_of_lt_succ (Nat.log_lt_of_lt_pow (by omega) (by omega))

theorem tile_id_eq_iff (small : masks.l2CacheMaskShift.toNat ≤ 31) (a b : BitVec 32) :
    (fillEntry entry masks a).tile_id = (fillEntry entry masks b).tile_id ↔
      a.toNat / 2 ^ masks.l2CacheMaskShift.toNat = b.toNat / 2 ^ masks.l2CacheMaskShift.toNat := by
  have bits : ∀ x : BitVec 32, (extractBits32 x masks.l2CacheMaskShift 31).toNat =
      x.toNat / 2 ^ masks.l2CacheMaskShift.toNat := by
    intro x
    have last : (31 : BitVec 32).toNat = 31 := rfl
    rw [extractBits32_toNat x (by rw [last]; exact small) (by decide), last]
    apply Nat.mod_eq_of_lt
    apply Nat.div_lt_of_lt_mul
    rw [← Nat.pow_add, show masks.l2CacheMaskShift.toNat + (31 - masks.l2CacheMaskShift.toNat + 1) = 32 by omega]
    exact x.isLt
  simp only [fillEntry, BitVec.toInt_inj]
  rw [← BitVec.toNat_inj, bits, bits]

/-! ## One tile for each cache -/

/-- APIC ids that are equal but for the bits that tell `n` ids apart have one tile. -/
def SharedTile (masks : Masks) (entry : TopologyEntry) (n : Nat) : Prop :=
  ∀ a b : BitVec 32, a.toNat / 2 ^ Nat.clog 2 n = b.toNat / 2 ^ Nat.clog 2 n →
    (fillEntry entry masks a).tile_id = (fillEntry entry masks b).tile_id

/-- The logarithms rounded down and up differ by one but at the powers of two. -/
theorem clog_eq_log_iff {n : Nat} (positive : 1 ≤ n) : Nat.clog 2 n = Nat.log 2 n ↔ ∃ k, n = 2 ^ k := by
  constructor
  · intro same
    refine ⟨Nat.log 2 n, le_antisymm ?_ (Nat.pow_log_le_self 2 (by omega))⟩
    have ceil := Nat.le_pow_clog (by decide : 1 < 2) n
    rwa [same] at ceil
  · rintro ⟨k, rfl⟩
    rw [Nat.clog_pow 2 k (by decide), Nat.log_pow (by decide)]

theorem log_lt_clog {n : Nat} (positive : 1 ≤ n) (other : Nat.clog 2 n ≠ Nat.log 2 n) :
    Nat.log 2 n < Nat.clog 2 n := by
  have floor : 2 ^ Nat.log 2 n ≤ n := Nat.pow_log_le_self 2 (by omega)
  have ceil : n ≤ 2 ^ Nat.clog 2 n := Nat.le_pow_clog (by decide) n
  have order : Nat.log 2 n ≤ Nat.clog 2 n :=
    (Nat.pow_le_pow_iff_right (by decide : 1 < 2)).mp (floor.trans ceil)
  omega

/-- With a shift rounded down, the first id behind the shift gets a tile of its own. -/
theorem sharedTile_iff {n : Nat} (positive : 1 ≤ n) (shift : masks.l2CacheMaskShift.toNat = Nat.log 2 n)
    (small : masks.l2CacheMaskShift.toNat ≤ 31) : SharedTile masks entry n ↔ ∃ k, n = 2 ^ k := by
  rw [← clog_eq_log_iff positive]
  constructor
  · intro shared
    by_contra other
    have rounded := log_lt_clog positive other
    have power : (BitVec.ofNat 32 (2 ^ Nat.log 2 n)).toNat = 2 ^ Nat.log 2 n := by
      rw [BitVec.toNat_ofNat, Nat.mod_eq_of_lt (Nat.pow_lt_pow_right (by decide) (by omega))]
    have together : (0 : BitVec 32).toNat / 2 ^ Nat.clog 2 n =
        (BitVec.ofNat 32 (2 ^ Nat.log 2 n)).toNat / 2 ^ Nat.clog 2 n := by
      rw [power, Nat.div_eq_of_lt (Nat.pow_lt_pow_right (by decide) rounded)]
      exact Nat.zero_div _
    have tiles := (tile_id_eq_iff small _ _).mp (shared _ _ together)
    rw [power, shift, Nat.div_self (Nat.two_pow_pos _), show (0 : BitVec 32).toNat = 0 from rfl, Nat.zero_div] at tiles
    omega
  · intro same a b together
    rw [tile_id_eq_iff small, shift, ← same]
    exact together

/-- The ids make up the APIC id for all masks, and one tile for each L2 cache comes out just where a power of two
of APIC ids share one. -/
theorem fillEntry_ids_iff (cpuid : CacheLeaves) (masks : Masks) (entry : TopologyEntry)
    (found : initCoreMasks cpuid = some masks)
    (narrow : masks.smtMaskWidth.toNat + masks.coreMaskWidth.toNat ≤ 31) :
    (∀ a : BitVec 32, Decomposed masks (fillEntry entry masks a) a) ∧
      (SharedTile masks entry (sharingCache cpuid.l2).toNat ↔ ∃ k, (sharingCache cpuid.l2).toNat = 2 ^ k) := by
  obtain ⟨shift, small⟩ := l2CacheMaskShift_toNat found
  have positive : 1 ≤ (sharingCache cpuid.l2).toNat := by
    rw [sharingCache_toNat]
    omega
  exact ⟨decomposed_fillEntry narrow entry, sharedTile_iff positive shift (small.trans (by decide))⟩

/-- Two threads and eight cores in a package, and three APIC ids for each L2 cache. -/
def threeSharing : CacheLeaves where
  leafB := [⟨1, 2, 0x100⟩, ⟨4, 16, 0x201⟩]
  l2 := 0x8000
  l3 := 0x3C000

def threeSharingMasks : Masks where
  smtMaskWidth := 1
  coreMaskWidth := 3
  l2CacheMaskShift := 1
  l3CacheMaskShift := 4

def noEntry : TopologyEntry := ⟨-1, -1, -1, -1, -1, -1, -1, -1⟩

theorem fillEntry_ids_threeSharing :
    (∀ a : BitVec 32, Decomposed threeSharingMasks (fillEntry noEntry threeSharingMasks a) a) ∧
      (SharedTile threeSharingMasks noEntry (sharingCache threeSharing.l2).toNat ↔
        ∃ k, (sharingCache threeSharing.l2).toNat = 2 ^ k) :=
  fillEntry_ids_iff threeSharing threeSharingMasks noEntry (by decide) (by decide)

/-- The APIC ids 0 and 2 are of one L2 cache, and get the tiles 0 and 1. -/
theorem threeSharing_two_tiles :
    initCoreMasks threeSharing = some threeSharingMasks ∧ (sharingCache threeSharing.l2).toNat = 3 ∧
      (0#32).toNat / 2 ^ Nat.clog 2 3 = (2#32).toNat / 2 ^ Nat.clog 2 3 ∧
      (fillEntry noEntry threeSharingMasks 0).tile_id = 0 ∧ (fillEntry noEntry threeSharingMasks 2).tile_id = 1 := by
  decide

end Pcm.Topology
