import Mathlib.Data.Rat.Defs
import OwlAprilTagProcessor.Library.CircularBuffer
import OwlAprilTagProcessor.Net.Asio

/-!
# The throughput tracer

`frame` is called once for each ended polling cycle, `flushFps` once a second by the
tracer's own timer. The counter is an `int` that wraps; averages are exact rationals.
-/

namespace OwlTagProcessor
open Asio

/-- The number of entries of both windows. -/
def averageWindow : Nat := 10

structure FpsTracer where
  count : Int32 := 0
  averageFps : Rat := 0
  averageFpsBuffer : CircularBuffer Rat averageWindow := .filled averageWindow 0
  averageWastBuffer : CircularBuffer Rat averageWindow := .filled averageWindow 0

/-- The figures one flush writes to the log. -/
structure FpsReport where
  fps : Int32
  averageFps : Rat
  windowFps : Rat
  windowWaste : Rat
  deriving DecidableEq, Repr

def FpsTracer.frame (self : FpsTracer) (wastMs : Int) : FpsTracer :=
  { self with
    count := self.count + 1
    averageWastBuffer := self.averageWastBuffer.pushBack wastMs }

/-- `std::reduce`. -/
def reduce (xs : List Rat) : Rat := xs.foldl (· + ·) 0

/-- On an error the handler returns at once and does not wait again. -/
def FpsTracer.flushFps (self : FpsTracer) (ec : ErrorCode) : FpsTracer × Option FpsReport :=
  if ec.failed then (self, none)
  else
    let f := self.count
    let averageFpsBuffer := self.averageFpsBuffer.pushBack f.toInt
    let a10 := reduce averageFpsBuffer.items / averageWindow
    let w0 := reduce self.averageWastBuffer.items / averageWindow
    let averageFps := (self.averageFps * (averageWindow - 1) + f.toInt) / averageWindow
    ({ self with count := 0, averageFpsBuffer, averageFps }, some ⟨f, averageFps, a10, w0⟩)

end OwlTagProcessor
