import Mathlib.Data.Int.Notation

/-!
# Configuration

The four sections of the configuration, with the defaults compiled into
`TagConfigLoader.h`. `int` is `Int32` and `long` is `Int64`, as on the 64-bit Linux
targets the program is built for.
-/

namespace OwlTagConfigLoader

structure ConfigGetImage where
  host : String := "127.0.0.1"
  port : String := "23331"
  target : String := "/1"
  version : Int32 := 11
  timeoutMs : Int64 := 1 * 1000
  deriving DecidableEq, Repr

structure ConfigSendResult where
  host : String := "127.0.0.1"
  port : String := "23338"
  target : String := "/cmd"
  version : Int32 := 11
  timeoutMs : Int64 := 1 * 1000
  deriving DecidableEq, Repr

structure ConfigTagProcessor where
  timeStartMs : Int64 := 1 * 1000
  timeDurationMs : Int64 := 300
  timeoutCountLimit : Int64 := 6
  timeDurationMini : Int64 := 30
  deriving DecidableEq, Repr

structure ConfigAprilTagData where
  resizeWidth : Int32 := 640
  resizeHeight : Int32 := 480
  aprilTagDetectorMaxHammingBitsCorrected : Int32 := 1
  deriving DecidableEq, Repr

structure Config where
  configTagProcessor : ConfigTagProcessor := {}
  configAprilTagData : ConfigAprilTagData := {}
  configGetImage : ConfigGetImage := {}
  configSendResult : ConfigSendResult := {}
  deriving DecidableEq, Repr

end OwlTagConfigLoader
