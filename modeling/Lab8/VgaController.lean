import Lab8.Lib.Clocked
/-!
# The scan: module `VGA_controller` (VGA_controller.sv)

Two counters clocked by `VGA_CLK`, with registered sync and blanking outputs computed from the
counters' next values (:79-106). `DrawX` and `DrawY` add the camera offset in 10 bits (:53-54).
-/

namespace Lab8.VgaController

structure Regs where
  vgaHS : Bool
  vgaVS : Bool
  vgaBlankN : Bool
  hCounter : BitVec 10
  vCounter : BitVec 10
deriving DecidableEq, Repr

def hTotal : BitVec 10 := 800
def vTotal : BitVec 10 := 525

def hCounterIn (r : Regs) : BitVec 10 :=
  if r.hCounter + 1 = hTotal then 0 else r.hCounter + 1

def vCounterIn (r : Regs) : BitVec 10 :=
  if r.hCounter + 1 = hTotal then
    if r.vCounter + 1 = vTotal then 0 else r.vCounter + 1
  else r.vCounter

/-- The state `Reset` leaves; also the power-up state of the registers. -/
def init : Regs := ⟨false, false, false, 0, 0⟩

/-- One `VGA_CLK` edge (:57-77). -/
def tick (reset : Bool) (r : Regs) : Regs :=
  if reset then init
  else
    { vgaHS := !(decide (hCounterIn r ≥ 656) && decide (hCounterIn r < 752))
      vgaVS := !(decide (vCounterIn r ≥ 490) && decide (vCounterIn r < 492))
      vgaBlankN := decide (hCounterIn r < 640) && decide (vCounterIn r < 480)
      hCounter := hCounterIn r
      vCounter := vCounterIn r }

def drawX (r : Regs) (progressx : BitVec 10) : BitVec 10 := r.hCounter + progressx
def drawY (r : Regs) (progressy : BitVec 10) : BitVec 10 := r.vCounter + progressy

end Lab8.VgaController
