import Aldis.Lib.Octets

/-!
# Where an STM32 image can start

The flash-start offsets Klipper's Kconfig offers, and which of them the core vector table of
an image is consistent with.
-/

namespace Aldis.Stm32

open Octets

def SRAM_START : UInt32 := 0x20000000
def SRAM_END : UInt32 := 0x20200000
def FLASH_START : UInt32 := 0x08000000
def FLASH_END : UInt32 := 0x08200000
def CORE_VECTORS : ℕ := 16

/-- Every candidate application start, in the order of `FLASH_START_OFFSETS`. -/
def candidateApplicationStarts : List UInt32 :=
  [0x800, 0x1000, 0x2000, 0x4000, 0x5000, 0x7000, 0x8000, 0x8800, 0x9000, 0xC000, 0x10000,
    0x20000, 0x20200, 0].map (FLASH_START + ·)

def isPlausibleVectorTable (stackPointer resetVector : UInt32) : Bool :=
  (SRAM_START ≤ stackPointer && stackPointer < SRAM_END) && stackPointer % 4 == 0 &&
    (FLASH_START ≤ resetVector && resetVector < FLASH_END) && resetVector % 2 == 1

def coreVectors (firmware : Bytes) : List UInt32 :=
  ((List.range (firmware.length / 4)).take CORE_VECTORS).map
    (fun index => fromLe32 (chunk 4 index firmware))

/-- The candidate starts at which every flash pointer of the core vector table lies within
the image. -/
def plausibleApplicationStarts (firmware : Bytes) : List UInt32 :=
  match coreVectors firmware with
  | stackPointer :: resetVector :: rest =>
    if isPlausibleVectorTable stackPointer resetVector then
      let length := UInt32.ofNat (min firmware.length (2 ^ 32 - 1))
      let handlers := (resetVector :: rest).filter
        (fun word => FLASH_START ≤ word && word < FLASH_END)
      candidateApplicationStarts.filter fun base =>
        handlers.all (fun handler => base ≤ handler && handler < saturatingAdd base length)
    else []
  | _ => []

end Aldis.Stm32
