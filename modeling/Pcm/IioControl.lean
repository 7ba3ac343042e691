import Pcm.IioListing
import Pcm.Lib.BitFields

/-!
# The control register of the IIO counters

Ten fields are packed into the control register, by a setter and a getter each; where two of them are and how wide
they are depends on the processor (`lspci.h:38-164`). The fields do not meet, so every order of setters gives
each field the last value set for it. `setField` of the event handler calls the setters.
-/

namespace Pcm.Iio

open StdString BitFields
open Throwing (bind_eq_ok)

/-! ## Masks and shifts -/

def EVENT_SELECT_MASK : BitVec 64 := 0xFF
def UMASK_SHIFT : Nat := 8
def UMASK_MASK : BitVec 64 := 0xFF <<< UMASK_SHIFT
def RESET_SHIFT : Nat := 17
def RESET_MASK : BitVec 64 := 0x01 <<< RESET_SHIFT
def EDGE_SHIFT : Nat := 18
def EDGE_MASK : BitVec 64 := 0x01 <<< EDGE_SHIFT
def OV_EN_SHIFT : Nat := 20
def OV_EN_MASK : BitVec 64 := 0x01 <<< OV_EN_SHIFT
def ENABLE_SHIFT : Nat := 22
def ENABLE_MASK : BitVec 64 := 0x01 <<< ENABLE_SHIFT
def INVERT_SHIFT : Nat := 23
def INVERT_MASK : BitVec 64 := 0x01 <<< INVERT_SHIFT
def THRESH_SHIFT : Nat := 24
def THRESH_MASK : BitVec 64 := 0xFFF <<< THRESH_SHIFT
def CH_MASK_SHIFT : Nat := 36

/-- `ccr_config` -/
structure CcrConfig where
  FC_MASK_SHIFT : Nat
  FC_MASK : BitVec 64
  CH_MASK : BitVec 64
  deriving DecidableEq, Repr

def CcrConfig.make (fc_mask_shift : Nat) (ch_mask : BitVec 64) : CcrConfig where
  FC_MASK_SHIFT := fc_mask_shift
  FC_MASK := 0x07 <<< fc_mask_shift
  CH_MASK := ch_mask <<< CH_MASK_SHIFT

/-- `lspci.cpp:5` -/
def skx_ccrs : CcrConfig := .make 44 0xFF

/-- `lspci.cpp:6` -/
def icx_ccrs : CcrConfig := .make 48 0xFFF

def config (type : CcrType) : CcrConfig := if type = .skx then skx_ccrs else icx_ccrs

/-! ## Getters and setters -/

def getMasked (mask : BitVec 64) (shift : Nat) (ccr_value : BitVec 64) : BitVec 64 :=
  (ccr_value &&& mask) >>> shift

def setMasked (mask : BitVec 64) (shift : Nat) (ccr_value value : BitVec 64) : BitVec 64 :=
  (ccr_value &&& ~~~mask) ||| ((value <<< shift) &&& mask)

def get_event_select (ccr_value : BitVec 64) : BitVec 64 := ccr_value &&& EVENT_SELECT_MASK

def set_event_select (ccr_value value : BitVec 64) : BitVec 64 :=
  (ccr_value &&& ~~~EVENT_SELECT_MASK) ||| (value &&& EVENT_SELECT_MASK)

def get_umask := getMasked UMASK_MASK UMASK_SHIFT
def set_umask := setMasked UMASK_MASK UMASK_SHIFT
def get_reset := getMasked RESET_MASK RESET_SHIFT
def set_reset := setMasked RESET_MASK RESET_SHIFT
def get_edge := getMasked EDGE_MASK EDGE_SHIFT
def set_edge := setMasked EDGE_MASK EDGE_SHIFT
def get_ov_en := getMasked OV_EN_MASK OV_EN_SHIFT
def set_ov_en := setMasked OV_EN_MASK OV_EN_SHIFT
def get_enable := getMasked ENABLE_MASK ENABLE_SHIFT
def set_enable := setMasked ENABLE_MASK ENABLE_SHIFT
def get_invert := getMasked INVERT_MASK INVERT_SHIFT
def set_invert := setMasked INVERT_MASK INVERT_SHIFT
def get_thresh := getMasked THRESH_MASK THRESH_SHIFT
def set_thresh := setMasked THRESH_MASK THRESH_SHIFT
def get_ch_mask (c : CcrConfig) := getMasked c.CH_MASK CH_MASK_SHIFT
def set_ch_mask (c : CcrConfig) := setMasked c.CH_MASK CH_MASK_SHIFT
def get_fc_mask (c : CcrConfig) := getMasked c.FC_MASK c.FC_MASK_SHIFT
def set_fc_mask (c : CcrConfig) := setMasked c.FC_MASK c.FC_MASK_SHIFT

inductive CcrField
  | event_select | umask | reset | edge | ov_en | enable | invert | thresh | ch_mask | fc_mask
  deriving DecidableEq, Repr

namespace CcrField

def get (c : CcrConfig) : CcrField → BitVec 64 → BitVec 64
  | event_select => get_event_select
  | umask => get_umask
  | reset => get_reset
  | edge => get_edge
  | ov_en => get_ov_en
  | enable => get_enable
  | invert => get_invert
  | thresh => get_thresh
  | ch_mask => get_ch_mask c
  | fc_mask => get_fc_mask c

def set (c : CcrConfig) : CcrField → BitVec 64 → BitVec 64 → BitVec 64
  | event_select => set_event_select
  | umask => set_umask
  | reset => set_reset
  | edge => set_edge
  | ov_en => set_ov_en
  | enable => set_enable
  | invert => set_invert
  | thresh => set_thresh
  | ch_mask => set_ch_mask c
  | fc_mask => set_fc_mask c

/-- The bits of a field. -/
def place (type : CcrType) : CcrField → Field
  | event_select => ⟨0, 8⟩
  | umask => ⟨8, 8⟩
  | reset => ⟨17, 1⟩
  | edge => ⟨18, 1⟩
  | ov_en => ⟨20, 1⟩
  | enable => ⟨22, 1⟩
  | invert => ⟨23, 1⟩
  | thresh => ⟨24, 12⟩
  | ch_mask => ⟨36, if type = .skx then 8 else 12⟩
  | fc_mask => ⟨if type = .skx then 44 else 48, 3⟩

end CcrField

/-- Calls of setters, one after the other. -/
def setAll (c : CcrConfig) (ccr_value : BitVec 64) (calls : List (CcrField × BitVec 64)) : BitVec 64 :=
  calls.foldl (fun ccr_value call => call.1.set c ccr_value call.2) ccr_value

/-! ## The fields do not meet -/

variable {type : CcrType}

theorem place_fits (type : CcrType) (f : CcrField) : (f.place type).position + (f.place type).width ≤ 64 := by
  cases type <;> cases f <;> decide

theorem place_disjoint {f g : CcrField} (different : f ≠ g) : (f.place type).Disjoint (g.place type) := by
  cases type <;> cases f <;> cases g <;> first | exact absurd rfl different | decide

/-! ## A setter writes to its field -/

theorem setMasked_eq_set (f : Field) (ccr_value value : BitVec 64) :
    setMasked (lowBits 64 f.width <<< f.position) f.position ccr_value value = f.set ccr_value value := by
  rw [setMasked, Field.set, BitVec.shiftLeft_and_distrib]

theorem getMasked_eq_get (f : Field) (fits : f.position + f.width ≤ 64) (ccr_value : BitVec 64) :
    getMasked (lowBits 64 f.width <<< f.position) f.position ccr_value = f.get ccr_value := by
  apply BitVec.eq_of_getLsbD_eq
  intro i inside
  rw [getLsbD_get, getMasked, BitVec.getLsbD_ushiftRight, BitVec.getLsbD_and, BitVec.getLsbD_shiftLeft,
    getLsbD_lowBits]
  by_cases within : i < f.width
  · have places : f.position + i < 64 ∧ ¬ f.position + i < f.position ∧ f.position + i - f.position < 64 ∧
        f.position + i - f.position < f.width := by omega
    simp only [within, places, decide_true, decide_false, Bool.not_false, Bool.and_true, Bool.true_and]
  · simp [within]

theorem set_event_select_eq (ccr_value value : BitVec 64) :
    set_event_select ccr_value value = setMasked EVENT_SELECT_MASK 0 ccr_value value := by
  rw [set_event_select, setMasked, BitVec.shiftLeft_zero]

theorem set_eq (type : CcrType) (f : CcrField) (ccr_value value : BitVec 64) :
    f.set (config type) ccr_value value = (f.place type).set ccr_value value := by
  have masked := setMasked_eq_set (f.place type) ccr_value value
  cases f with
  | event_select => exact (set_event_select_eq ccr_value value).trans masked
  | ch_mask => cases type <;> exact masked
  | fc_mask => cases type <;> exact masked
  | _ => exact masked

theorem get_eq (type : CcrType) (f : CcrField) (ccr_value : BitVec 64) :
    f.get (config type) ccr_value = (f.place type).get ccr_value := by
  have masked := getMasked_eq_get (f.place type) (place_fits type f) ccr_value
  cases f with
  | ch_mask => cases type <;> exact masked
  | fc_mask => cases type <;> exact masked
  | _ => exact masked

theorem setAll_eq (type : CcrType) (ccr_value : BitVec 64) (calls : List (CcrField × BitVec 64)) :
    setAll (config type) ccr_value calls = writeAll (CcrField.place type) ccr_value calls := by
  induction calls generalizing ccr_value with
  | nil => rfl
  | cons call rest ih =>
      rw [writeAll_cons, ← set_eq, ← ih]
      rfl

theorem get_setAll (type : CcrType) (f : CcrField) (ccr_value : BitVec 64) (calls : List (CcrField × BitVec 64)) :
    (f.get (config type) (setAll (config type) ccr_value calls)).toNat =
      ((last f calls).map (fun value => value.toNat % 2 ^ (f.place type).width)).getD
        (f.get (config type) ccr_value).toNat := by
  rw [get_eq, get_eq, setAll_eq,
    get_writeAll f (fun g different => place_disjoint different) (place_fits type f), written]
  cases last f calls with
  | some value => exact and_lowBits_toNat value _
  | none => rfl

/-- The law of the codec, for both layouts and all calls of setters. -/
theorem setters_getters (type : CcrType) (ccr_value : BitVec 64) (calls : List (CcrField × BitVec 64)) :
    (∀ f : CcrField, (f.get (config type) (setAll (config type) ccr_value calls)).toNat =
      ((last f calls).map (fun value => value.toNat % 2 ^ (f.place type).width)).getD
        (f.get (config type) ccr_value).toNat) ∧
    (∀ b, (∀ f : CcrField, (f.place type).covers b = false) →
      (setAll (config type) ccr_value calls).getLsbD b = ccr_value.getLsbD b) ∧
    (∀ f g : CcrField, f ≠ g → ∀ v w : BitVec 64,
      g.set (config type) (f.set (config type) ccr_value v) w =
        f.set (config type) (g.set (config type) ccr_value w) v) := by
  refine ⟨fun f => get_setAll type f ccr_value calls, ?_, ?_⟩
  · intro b outside
    rw [setAll_eq, getLsbD_writeAll_of_outside outside]
  · intro f g different v w
    rw [set_eq, set_eq, set_eq, set_eq, set_comm (place_disjoint different)]

/-! ## The event handler -/

section Lines

variable {p p' : Parse} {item : Bytes}

end Lines

end Pcm.Iio
